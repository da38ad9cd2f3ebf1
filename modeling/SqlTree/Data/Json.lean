import SqlTree.Data.NumberReader
import SqlTree.Text.Hex

/-!
# JSON texts

A JSON text is cut into lexemes, and the lexemes build a value with the open containers on a
stack. Both steps go through their input once, one character and one lexeme at a time.

A part of a text may obey the grammar and still stand for no value: a number beyond all floats, a
string with one half of a pair of codes, an object with such a key, a container inside too many
others. It is read as `Value.unreadable`, so that it does no harm where nobody asks for it.

* `Json.lexemes?`: the lexemes of a text;
* `Json.read?`: the value of a text, some parts of which may be unreadable;
* `Json.readWhole?`: the value of a text, all parts of which are readable;
* `Json.text`: a text of a value, without blanks.
-/

namespace SqlTree.Json

/-! ## Lexemes -/

/-- A word, a mark, a number or a string. -/
inductive Lexeme where
  | openBrace
  | closeBrace
  | openBracket
  | closeBracket
  | colon
  | comma
  /-- A string, unless its codes stand for no characters. -/
  | string (s : Option String)
  /-- A value that is written as a word or a number. -/
  | scalar (v : Value)

/-- What the characters since the last lexeme are part of. -/
inductive Scan where
  | between
  /-- A word or a number, its characters in reverse. -/
  | word (chars : List Char)
  /-- A string, its codes in reverse. -/
  | string (codes : List Nat)
  /-- A string after a backslash. -/
  | escape (codes : List Nat)
  /-- A string in which a code is written, the digits of the code so far in reverse. -/
  | code (codes : List Nat) (digits : List Char)

/-- The value of a word or a number. -/
def scalar? (cs : List Char) : Option Value :=
  if cs = "null".toList then some .null
  else if cs = "true".toList then some (.bool true)
  else if cs = "false".toList then some (.bool false)
  else Data.readNumber? cs

/-- The lexeme of a character that stands alone. -/
def mark? (c : Char) : Option Lexeme :=
  if c = '\x7b' then some .openBrace
  else if c = '\x7d' then some .closeBrace
  else if c = '[' then some .openBracket
  else if c = ']' then some .closeBracket
  else if c = ':' then some .colon
  else if c = ',' then some .comma
  else none

/-- Blanks between lexemes. -/
def isBlank (c : Char) : Bool := c == ' ' || c == '\n' || c == '\r' || c == '\t'

/-- The next character outside of words and strings. -/
def scanBetween (c : Char) : Scan × List Lexeme :=
  if isBlank c then (.between, [])
  else if c = '\x22' then (.string [], [])
  else
    match mark? c with
    | some m => (.between, [m])
    | none => (.word [c], [])

/-- The character that a letter after a backslash stands for. -/
def escaped? (c : Char) : Option Char :=
  if c = '\x22' ∨ c = '\\' ∨ c = '/' then some c
  else if c = 'b' then some '\x08'
  else if c = 'f' then some '\x0c'
  else if c = 'n' then some '\n'
  else if c = 'r' then some '\r'
  else if c = 't' then some '\t'
  else none

/-- Whether a code is the first half of a pair. -/
def isHigh (n : Nat) : Bool := 0xD800 ≤ n && n < 0xDC00

/-- Whether a code is the second half of a pair. -/
def isLow (n : Nat) : Bool := 0xDC00 ≤ n && n < 0xE000

/-- The character of a pair of codes. -/
def ofPair (high low : Nat) : Char :=
  Char.ofNat (0x10000 + (high - 0xD800) * 0x400 + (low - 0xDC00))

/-- The characters of codes: one for each code, or for each pair of codes. Half a pair has none. -/
def decode? : List Nat → Option (List Char)
  | [] => some []
  | n :: ns =>
    if isHigh n then
      match ns with
      | low :: rest => if isLow low then (decode? rest).map (ofPair n low :: ·) else none
      | [] => none
    else if isLow n then none
    else (decode? ns).map (Char.ofNat n :: ·)

/-- The string of codes in reverse. -/
def finishString (codes : List Nat) : Lexeme :=
  .string ((decode? codes.reverse).map String.ofList)

/-- One more digit of a code, which has four. -/
def scanCode? (codes : List Nat) (digits : List Char) (c : Char) : Option Scan :=
  if (Text.hexDigit? c).isNone then none
  else if digits.length < 3 then some (.code codes (c :: digits))
  else (Text.continueHex? 0 (c :: digits).reverse).map fun n => .string (n :: codes)

/-- The next character: what it is part of, and the lexemes that it completes. -/
def scan? (s : Scan) (c : Char) : Option (Scan × List Lexeme) :=
  match s with
  | .between => some (scanBetween c)
  | .word chars =>
    if isBlank c ∨ c = '\x22' ∨ (mark? c).isSome then
      (scalar? chars.reverse).map fun v =>
        let (next, ls) := scanBetween c
        (next, .scalar v :: ls)
    else some (.word (c :: chars), [])
  | .string codes =>
    if c = '\x22' then some (.between, [finishString codes])
    else if c = '\\' then some (.escape codes, [])
    else if c.toNat < 0x20 then none
    else some (.string (c.toNat :: codes), [])
  | .escape codes =>
    if c = 'u' then some (.code codes [], [])
    else (escaped? c).map fun e => (.string (e.toNat :: codes), [])
  | .code codes digits => (scanCode? codes digits c).map fun next => (next, [])

/-- The lexemes of the rest of a text. -/
def lexemesFrom? (s : Scan) : List Char → Option (List Lexeme)
  | [] =>
    match s with
    | .between => some []
    | .word chars => (scalar? chars.reverse).map fun v => [.scalar v]
    | _ => none
  | c :: cs =>
    match scan? s c with
    | none => none
    | some (next, ls) => (lexemesFrom? next cs).map fun rest => ls ++ rest

/-- The lexemes of a text. -/
def lexemes? (cs : List Char) : Option (List Lexeme) := lexemesFrom? .between cs

/-! ## Values -/

/-- An open container, its parts in reverse. An object has no fields once a key was unreadable. -/
inductive Frame where
  | array (items : List Value)
  | object (fields : Option (List (String × Value)))
  /-- An object in which the value of a field comes next. -/
  | field (fields : Option (List (String × Value))) (key : Option String)

/-- What may come next. -/
inductive Expected where
  | value
  /-- A value, or the end of a list. -/
  | valueOrEnd
  | key
  /-- A field, or the end of an object. -/
  | keyOrEnd
  | colon (key : Option String)
  /-- A comma, or the end of the innermost container. -/
  | commaOrEnd
  /-- Nothing, after the whole value. -/
  | nothing (v : Value)

/-- The open containers from the inside out, and what may come next. -/
structure Progress where
  frames : List Frame
  expected : Expected

/-- The most containers that may be open at one place for a value to be readable. -/
def depthLimit : Nat := 127

/-- A value inside of open containers, unless these are too many for one more. -/
def limited (outer : List Frame) (v : Value) : Value :=
  if (outer.drop (depthLimit - 1)).isEmpty then v else .unreadable

/-- One more field in front of others. -/
def addField (key : Option String) (v : Value) (fields : Option (List (String × Value))) :
    Option (List (String × Value)) :=
  match key, fields with
  | some k, some fs => some ((k, v) :: fs)
  | _, _ => none

/-- The object of fields in reverse. -/
def objectOf : Option (List (String × Value)) → Value
  | some fields => .object fields.reverse
  | none => .unreadable

/-- A value is complete. -/
def addValue? (frames : List Frame) (v : Value) : Option Progress :=
  match frames with
  | [] => some ⟨[], .nothing v⟩
  | .array items :: outer => some ⟨.array (v :: items) :: outer, .commaOrEnd⟩
  | .field fields key :: outer => some ⟨.object (addField key v fields) :: outer, .commaOrEnd⟩
  | .object _ :: _ => none

/-- The innermost container is closed. -/
def closeFrame? (frames : List Frame) (l : Lexeme) : Option Progress :=
  match frames, l with
  | .array items :: outer, .closeBracket => addValue? outer (limited outer (.array items.reverse))
  | .object fields :: outer, .closeBrace => addValue? outer (limited outer (objectOf fields))
  | _, _ => none

/-- A value or the beginning of one. -/
def startValue? (frames : List Frame) (l : Lexeme) : Option Progress :=
  match l with
  | .scalar v => addValue? frames v
  | .string (some s) => addValue? frames (.string s)
  | .string none => addValue? frames .unreadable
  | .openBracket => some ⟨.array [] :: frames, .valueOrEnd⟩
  | .openBrace => some ⟨.object (some []) :: frames, .keyOrEnd⟩
  | _ => none

/-- The next lexeme. -/
def build? (p : Progress) (l : Lexeme) : Option Progress :=
  match p.expected with
  | .value => startValue? p.frames l
  | .valueOrEnd =>
    match l with
    | .closeBracket => closeFrame? p.frames l
    | _ => startValue? p.frames l
  | .key =>
    match l with
    | .string key => some ⟨p.frames, .colon key⟩
    | _ => none
  | .keyOrEnd =>
    match l with
    | .closeBrace => closeFrame? p.frames l
    | .string key => some ⟨p.frames, .colon key⟩
    | _ => none
  | .colon key =>
    match l, p.frames with
    | .colon, .object fields :: outer => some ⟨.field fields key :: outer, .value⟩
    | _, _ => none
  | .commaOrEnd =>
    match l, p.frames with
    | .comma, .array _ :: _ => some ⟨p.frames, .value⟩
    | .comma, .object _ :: _ => some ⟨p.frames, .key⟩
    | _, _ => closeFrame? p.frames l
  | .nothing _ => none

/-- The value that lexemes complete. -/
def buildAll? (p : Progress) : List Lexeme → Option Value
  | [] =>
    match p.expected with
    | .nothing v => some v
    | _ => none
  | l :: ls => (build? p l).bind fun next => buildAll? next ls

/-- Reads a whole text as one value, some parts of which may be unreadable. -/
def read? (s : String) : Option Value :=
  (lexemes? s.toList).bind (buildAll? ⟨[], .value⟩)

/-- Reads a whole text as one value, all parts of which are readable. -/
def readWhole? (s : String) : Option Value := (read? s).filter Value.isReadable

/-! ## Text -/

/-- The characters that a character of a string is written as. -/
def escape (c : Char) : List Char :=
  if c = '\x22' ∨ c = '\\' then ['\\', c]
  else if c = '\n' then ['\\', 'n']
  else if c = '\r' then ['\\', 'r']
  else if c = '\t' then ['\\', 't']
  else if c = '\x08' then ['\\', 'b']
  else if c = '\x0c' then ['\\', 'f']
  else if c.toNat < 0x20 then ['\\', 'u'] ++ Text.hexDigits 4 c.toNat
  else [c]

/-- A string between quotation marks. -/
def stringText (s : String) : String :=
  String.ofList ('\x22' :: s.toList.flatMap escape ++ ['\x22'])

mutual

/-- The text of a value. A float that is not finite and an unreadable part are written as null. -/
def text : Value → String
  | .null | .unreadable => "null"
  | .bool b => if b then "true" else "false"
  | .int n => String.ofList (Text.signedDigits n)
  | .float x => if x.isFinite then Number.floatText x else "null"
  | .string s => stringText s
  | .array items => "[" ++ ",".intercalate (textsOfAll items) ++ "]"
  | .object fields => "\x7b" ++ ",".intercalate (textsOfFields fields) ++ "\x7d"

/-- The texts of all values of a list. -/
def textsOfAll : List Value → List String
  | [] => []
  | v :: vs => text v :: textsOfAll vs

/-- The texts of all fields of an object. -/
def textsOfFields : List (String × Value) → List String
  | [] => []
  | (k, v) :: fields => (stringText k ++ ":" ++ text v) :: textsOfFields fields

end

end SqlTree.Json
