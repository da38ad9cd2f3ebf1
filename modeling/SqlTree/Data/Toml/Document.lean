import SqlTree.Data.Toml.Lexeme
import SqlTree.Data.Toml.Scalar
import SqlTree.Data.Toml.Table
import SqlTree.Number.Range

/-!
# TOML documents

The lexemes of a TOML text build a document with the open values on a stack, one lexeme at a time.
Lists and tables inside of a line may go on over several lines, and a comma may end them.

* `Toml.read?`: the value of a text;
* `Toml.text?`: a text of an object, with a line for each field.
-/

namespace SqlTree.Toml

/-! ## Keys -/

/-- A part of a written key: a key, or a dot between two. -/
inductive KeyPart where
  | key (k : String)
  | dot

/-- Whether a character may be part of a key without quotation marks. -/
def isKeyChar (c : Char) : Bool := c.isAlphanum || c == '_' || c == '-'

/-- The parts of a word; `run` are the characters since the last dot, in reverse. -/
def keyPartsFrom? (run : List Char) : List Char → Option (List KeyPart)
  | [] => some (flush run)
  | c :: cs =>
    if c = '.' then (keyPartsFrom? [] cs).map fun ps => flush run ++ .dot :: ps
    else if isKeyChar c then keyPartsFrom? (c :: run) cs
    else none
where
  /-- The key that ends after a run. -/
  flush (run : List Char) : List KeyPart :=
    if run = [] then [] else [.key (String.ofList run.reverse)]

/-- The path that parts write: keys with dots between them. -/
def path? : List KeyPart → Option (List String)
  | [.key k] => some [k]
  | .key k :: .dot :: ps => (path? ps).map (k :: ·)
  | _ => none

/-! ## Lines -/

/-- A line of a document: an assignment, or the header of a table or of a further table of a
list. -/
inductive Line where
  | assignment (path : List String) (v : Value)
  | header (path : List String)
  | elementHeader (path : List String)

/-- An open value, from which parts are missing. -/
inductive Frame where
  /-- A line with the value for a path. -/
  | line (path : List String)
  | array (items : List Value)
  | table (fields : Entries)
  /-- A table in which the value for a path comes next. -/
  | field (fields : Entries) (path : List String)

/-- What may come next. Key parts are in reverse. -/
inductive Expected where
  /-- A line, or nothing on one. -/
  | line
  /-- The rest of a header, of one of the two kinds. -/
  | header (element : Bool) (parts : List KeyPart)
  | key (parts : List KeyPart)
  | value
  /-- A value, or the end of a list. -/
  | valueOrEnd
  /-- A key, or the end of a table. -/
  | keyOrEnd
  /-- A comma, or the end of the innermost value. -/
  | commaOrEnd
  | lineEnd

/-- The finished lines in reverse, the open values from the inside out, and what may come next. -/
structure Progress where
  lines : List Line
  frames : List Frame
  expected : Expected

/-- One more part of a key. -/
def addKeyParts? (parts : List KeyPart) (l : Lexeme) : Option (List KeyPart) :=
  match l with
  | .word cs => (keyPartsFrom? [] cs).map fun ps => ps.reverse ++ parts
  | .string s false => some (.key s :: parts)
  | _ => none

/-- A value is complete. -/
def addValue? (p : Progress) (frames : List Frame) (v : Value) : Option Progress :=
  match frames with
  | [.line path] => some ⟨.assignment path v :: p.lines, [], .lineEnd⟩
  | .array items :: outer => some ⟨p.lines, .array (v :: items) :: outer, .commaOrEnd⟩
  | .field fields path :: outer =>
    (assign? fields path v).map fun fields => ⟨p.lines, .table fields :: outer, .commaOrEnd⟩
  | _ => none

/-- The innermost value is closed. -/
def closeFrame? (p : Progress) (frames : List Frame) (l : Lexeme) : Option Progress :=
  match frames, l with
  | .array items :: outer, .close => addValue? p outer (.array items.reverse)
  | .array items :: .array items' :: outer, .closeTwice =>
    addValue? p outer (.array (.array items.reverse :: items').reverse)
  | .table fields :: outer, .closeBrace => addValue? p outer (.object (fieldsOf fields))
  | _, _ => none

/-- The most lists and tables that may be open inside of a line. -/
def depthLimit : Nat := 80

/-- Lists or tables are opened, as long as these are not too many inside of the line. -/
def openFrames? (p : Progress) (opened : List Frame) (expected : Expected) : Option Progress :=
  let frames := opened ++ p.frames
  if frames.length ≤ depthLimit + 1 then some ⟨p.lines, frames, expected⟩ else none

/-- A value or the beginning of one. -/
def startValue? (p : Progress) (l : Lexeme) : Option Progress :=
  match l with
  | .word cs => (scalar? cs).bind (addValue? p p.frames)
  | .string s _ => addValue? p p.frames (.string s)
  | .open => openFrames? p [.array []] .valueOrEnd
  | .openTwice => openFrames? p [.array [], .array []] .valueOrEnd
  | .openBrace => openFrames? p [.table []] .keyOrEnd
  | _ => none

/-- Whether the innermost open value is a list. -/
def inArray (p : Progress) : Bool :=
  match p.frames with
  | .array _ :: _ => true
  | _ => false

/-- The key of an assignment is complete. -/
def finishKey? (p : Progress) (parts : List KeyPart) : Option Progress :=
  (path? parts.reverse).bind fun path =>
    match p.frames with
    | [] => some ⟨p.lines, [.line path], .value⟩
    | .table fields :: outer => some ⟨p.lines, .field fields path :: outer, .value⟩
    | _ => none

/-- A header is complete. -/
def finishHeader? (p : Progress) (element : Bool) (parts : List KeyPart) : Option Progress :=
  (path? parts.reverse).map fun path =>
    ⟨(if element then .elementHeader path else .header path) :: p.lines, [], .lineEnd⟩

/-- The first lexeme of a key. -/
def startKey? (p : Progress) (l : Lexeme) : Option Progress :=
  (addKeyParts? [] l).map fun parts => ⟨p.lines, p.frames, .key parts⟩

/-- The next lexeme. -/
def build? (p : Progress) (l : Lexeme) : Option Progress :=
  match p.expected with
  | .line =>
    match l with
    | .newline => some p
    | .open => some ⟨p.lines, [], .header false []⟩
    | .openTwice => some ⟨p.lines, [], .header true []⟩
    | _ => startKey? p l
  | .header element parts =>
    match l with
    | .close => if element then none else finishHeader? p element parts
    | .closeTwice => if element then finishHeader? p element parts else none
    | _ => (addKeyParts? parts l).map fun parts => ⟨p.lines, [], .header element parts⟩
  | .key parts =>
    match l with
    | .equals => finishKey? p parts
    | _ => (addKeyParts? parts l).map fun parts => ⟨p.lines, p.frames, .key parts⟩
  | .value => startValue? p l
  | .valueOrEnd =>
    match l with
    | .newline => some p
    | .close | .closeTwice => closeFrame? p p.frames l
    | _ => startValue? p l
  | .keyOrEnd =>
    match l with
    | .newline => some p
    | .closeBrace => closeFrame? p p.frames l
    | _ => startKey? p l
  | .commaOrEnd =>
    match l with
    | .newline => some p
    | .comma => some ⟨p.lines, p.frames, if inArray p then .valueOrEnd else .keyOrEnd⟩
    | _ => closeFrame? p p.frames l
  | .lineEnd =>
    match l with
    | .newline => some ⟨p.lines, [], .line⟩
    | _ => none

/-- The lines that lexemes complete. -/
def buildAll? (p : Progress) : List Lexeme → Option (List Line)
  | [] =>
    match p.expected with
    | .line | .lineEnd => some p.lines.reverse
    | _ => none
  | l :: ls => (build? p l).bind fun next => buildAll? next ls

/-! ## Documents -/

/-- The tables of a document after some of its lines; `current` is the path of the last header. -/
def addLines? (es : Entries) (current : List String) : List Line → Option Entries
  | [] => some es
  | .assignment path v :: ls =>
    (atTable? (fun inner => assign? inner path v) es current).bind fun es =>
      addLines? es current ls
  | .header path :: ls => (openTable? es path).bind fun es => addLines? es path ls
  | .elementHeader path :: ls => (openElement? es path).bind fun es => addLines? es path ls

/-- Reads a whole text as an object. -/
def read? (s : String) : Option Value := do
  let lexemes ← lexemes? s.toList
  let lines ← buildAll? ⟨[], [], .line⟩ lexemes
  let entries ← addLines? [] [] lines
  return .object (fieldsOf entries)

/-! ## Text -/

/-- The characters that a character of a string is written as. -/
def escape (c : Char) : List Char :=
  if c = '\x22' ∨ c = '\\' then ['\\', c]
  else if c.toNat < 0x20 ∨ c.toNat = 0x7f then ['\\', 'u'] ++ Text.hexDigits 4 c.toNat
  else [c]

/-- A string between quotation marks. -/
def stringText (s : String) : String :=
  String.ofList ('\x22' :: s.toList.flatMap escape ++ ['\x22'])

mutual

/-- The text of a value on one line. Null and integers of more than 64 bits have none. -/
def valueText? : Value → Option String
  | .null | .unreadable => none
  | .bool b => some (if b then "true" else "false")
  | .int n =>
    if Number.fitsInt64 n then some (String.ofList (Text.signedDigits n)) else none
  | .float x =>
    if x.isFinite then some (Number.floatText x)
    else if x.isNaN then some "nan"
    else some (if x < 0.0 then "-inf" else "inf")
  | .string s => some (stringText s)
  | .array items => (itemTexts? items).map fun ts => "[" ++ ", ".intercalate ts ++ "]"
  | .object fields => (fieldTexts? fields).map fun ts => "\x7b" ++ ", ".intercalate ts ++ "\x7d"

/-- The texts of the values of a list. -/
def itemTexts? : List Value → Option (List String)
  | [] => some []
  | v :: vs =>
    match valueText? v, itemTexts? vs with
    | some t, some ts => some (t :: ts)
    | _, _ => none

/-- The texts of fields. -/
def fieldTexts? : List (String × Value) → Option (List String)
  | [] => some []
  | (k, v) :: fields =>
    match valueText? v, fieldTexts? fields with
    | some t, some ts => some ((stringText k ++ " = " ++ t) :: ts)
    | _, _ => none

end

/-- The text of an object, with a line for each field. -/
def text? : Value → Option String
  | .object fields => (fieldTexts? fields).map fun ts => String.join (ts.map (· ++ "\n"))
  | _ => none

end SqlTree.Toml
