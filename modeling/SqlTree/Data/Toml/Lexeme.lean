import SqlTree.Text.Hex

/-!
# Lexemes of TOML texts

A TOML text is cut into words, strings, marks and line ends. Two brackets without a blank between
them are one mark, since they introduce a table of a list of tables. A blank between a date and a
digit is part of a word, since a time may follow a date.

* `Toml.lexemes?`: the lexemes of a text.
-/

namespace SqlTree.Toml

/-- A word, a string, a mark or the end of a line. -/
inductive Lexeme where
  | word (chars : List Char)
  /-- A string; one that may go on over several lines is no key. -/
  | string (s : String) (multiline : Bool)
  | equals
  | comma
  | open
  | openTwice
  | close
  | closeTwice
  | openBrace
  | closeBrace
  | newline
deriving DecidableEq

/-- How a string is written: between quotation marks or apostrophes, one at each end for a string
on one line, and three for a string on several. -/
structure Quotes where
  mark : Char
  multiline : Bool

/-- Whether a backslash begins an escape. -/
def Quotes.escapes (q : Quotes) : Bool := q.mark == '\x22'

/-- The finished string of characters in reverse. -/
def Quotes.finish (q : Quotes) (chars : List Char) : Lexeme :=
  .string (String.ofList chars.reverse) q.multiline

/-- What the characters since the last lexeme are part of. Runs of characters are in reverse. -/
inductive Scan where
  | between
  | word (chars : List Char)
  /-- A blank after a date. -/
  | dateBlank (chars : List Char)
  /-- An opening bracket that may be the first of two. -/
  | open
  /-- A closing bracket that may be the first of two. -/
  | close
  | comment
  /-- The first character of a line end of two, and what comes after the second. -/
  | carriageReturn (next : Scan) (ls : List Lexeme)
  /-- The first of the marks that open a string. -/
  | mark (mark : Char)
  /-- Two marks, which are an empty string unless a third follows. -/
  | twoMarks (mark : Char)
  /-- Three marks, after which a line end does not count. -/
  | threeMarks (mark : Char)
  /-- A string, and the number of marks in a row at its end. -/
  | string (q : Quotes) (chars : List Char) (marks : Nat)
  /-- A string after a backslash. -/
  | escape (q : Quotes) (chars : List Char)
  /-- The same in a code: the number of digits to come, and the digits so far. -/
  | code (q : Quotes) (chars : List Char) (width : Nat) (digits : List Char)
  /-- A string after a backslash at the end of a line, where blanks and line ends do not count. -/
  | fold (q : Quotes) (chars : List Char) (ended : Bool)

/-- Whether a character may be part of a word. -/
def isWordChar (c : Char) : Bool :=
  c.isAlphanum || c == '_' || c == '-' || c == '+' || c == '.' || c == ':'

/-- Whether a character may not be part of a string or a comment. -/
def isControl (c : Char) : Bool := (c.toNat < 0x20 && c != '\t') || c.toNat == 0x7f

/-- Whether characters, in reverse, have the form of a date: four, two and two digits. -/
def isDateForm (chars : List Char) : Bool :=
  chars.map (fun c => if c.isDigit then '0' else c) == "00-00-0000".toList

/-- A carriage return, which a line end has to follow. -/
def carriageReturn (next : Scan) (ls : List Lexeme) : Option (Scan × List Lexeme) :=
  some (.carriageReturn next ls, [])

/-- The next character outside of words, strings and comments. -/
def scanBetween? (c : Char) : Option (Scan × List Lexeme) :=
  if c = ' ' ∨ c = '\t' then some (.between, [])
  else if c = '\n' then some (.between, [.newline])
  else if c = '\r' then carriageReturn .between [.newline]
  else if c = '#' then some (.comment, [])
  else if c = '=' then some (.between, [.equals])
  else if c = ',' then some (.between, [.comma])
  else if c = '[' then some (.open, [])
  else if c = ']' then some (.close, [])
  else if c = '\x7b' then some (.between, [.openBrace])
  else if c = '\x7d' then some (.between, [.closeBrace])
  else if c = '\x22' ∨ c = '\x27' then some (.mark c, [])
  else if isWordChar c then some (.word [c], [])
  else none

/-- A lexeme that ends before the next character. -/
def scanAfter? (l : Lexeme) (c : Char) : Option (Scan × List Lexeme) :=
  (scanBetween? c).map fun (next, ls) => (next, l :: ls)

/-- The next character after a word. -/
def scanWord? (chars : List Char) (c : Char) : Option (Scan × List Lexeme) :=
  if isWordChar c then some (.word (c :: chars), [])
  else if c = ' ' ∧ isDateForm chars then some (.dateBlank chars, [])
  else scanAfter? (.word chars.reverse) c

/-- The next character of a string. On several lines, the string ends before the next character
after three marks, or with the fifth mark; marks in front of the last three belong to it. -/
def scanString? (q : Quotes) (chars : List Char) (marks : Nat) (c : Char) :
    Option (Scan × List Lexeme) :=
  if c = q.mark then
    if !q.multiline then some (.between, [q.finish chars])
    else if marks < 4 then some (.string q chars (marks + 1), [])
    else some (.between, [q.finish (List.replicate 2 q.mark ++ chars)])
  else if 3 ≤ marks then scanAfter? (q.finish (List.replicate (marks - 3) q.mark ++ chars)) c
  else
    let chars := List.replicate marks q.mark ++ chars
    if c = '\\' ∧ q.escapes then some (.escape q chars, [])
    else if c = '\n' ∧ q.multiline then some (.string q (c :: chars) 0, [])
    else if c = '\r' ∧ q.multiline then carriageReturn (.string q ('\n' :: c :: chars) 0) []
    else if isControl c then none
    else some (.string q (c :: chars) 0, [])

/-- The character that a letter after a backslash stands for. -/
def escaped? (c : Char) : Option Char :=
  if c = '\x22' ∨ c = '\\' then some c
  else if c = 'b' then some '\x08'
  else if c = 't' then some '\t'
  else if c = 'n' then some '\n'
  else if c = 'f' then some '\x0c'
  else if c = 'r' then some '\r'
  else if c = 'e' then some '\x1b'
  else none

/-- The next character after a backslash. -/
def scanEscape? (q : Quotes) (chars : List Char) (c : Char) : Option (Scan × List Lexeme) :=
  if c = 'x' then some (.code q chars 2 [], [])
  else if c = 'u' then some (.code q chars 4 [], [])
  else if c = 'U' then some (.code q chars 8 [], [])
  else if q.multiline ∧ (c = ' ' ∨ c = '\t') then some (.fold q chars false, [])
  else if q.multiline ∧ c = '\n' then some (.fold q chars true, [])
  else if q.multiline ∧ c = '\r' then carriageReturn (.fold q chars true) []
  else (escaped? c).map fun e => (.string q (e :: chars) 0, [])

/-- The next character after a backslash at the end of a line. -/
def scanFold? (q : Quotes) (chars : List Char) (ended : Bool) (c : Char) :
    Option (Scan × List Lexeme) :=
  if c = ' ' ∨ c = '\t' then some (.fold q chars ended, [])
  else if c = '\n' then some (.fold q chars true, [])
  else if c = '\r' then carriageReturn (.fold q chars true) []
  else if ended then scanString? q chars 0 c
  else none

/-- The character of a code, unless it is none of a character. -/
def charOfCode? (n : Nat) : Option Char :=
  if h : n.isValidChar then some (Char.ofNatAux n h) else none

/-- The next character of a code. -/
def scanCode? (q : Quotes) (chars : List Char) (width : Nat) (digits : List Char) (c : Char) :
    Option Scan :=
  if (Text.hexDigit? c).isNone then none
  else if 1 < width then some (.code q chars (width - 1) (c :: digits))
  else
    ((Text.continueHex? 0 (c :: digits).reverse).bind charOfCode?).map fun x =>
      .string q (x :: chars) 0

/-- The next character: what it is part of, and the lexemes that it completes. -/
def scan? (s : Scan) (c : Char) : Option (Scan × List Lexeme) :=
  match s with
  | .between => scanBetween? c
  | .word chars => scanWord? chars c
  | .dateBlank chars =>
    if c.isDigit then some (.word (c :: ' ' :: chars), []) else scanAfter? (.word chars.reverse) c
  | .open => if c = '[' then some (.between, [.openTwice]) else scanAfter? .open c
  | .close => if c = ']' then some (.between, [.closeTwice]) else scanAfter? .close c
  | .comment =>
    if c = '\n' then some (.between, [.newline])
    else if c = '\r' then carriageReturn .between [.newline]
    else if isControl c then none
    else some (.comment, [])
  | .carriageReturn next ls => if c = '\n' then some (next, ls) else none
  | .mark mark =>
    if c = mark then some (.twoMarks mark, []) else scanString? ⟨mark, false⟩ [] 0 c
  | .twoMarks mark =>
    if c = mark then some (.threeMarks mark, []) else scanAfter? (.string "" false) c
  | .threeMarks mark =>
    let q : Quotes := ⟨mark, true⟩
    if c = '\n' then some (.string q [] 0, [])
    else if c = '\r' then carriageReturn (.string q [] 0) []
    else scanString? q [] 0 c
  | .string q chars marks => scanString? q chars marks c
  | .escape q chars => scanEscape? q chars c
  | .code q chars width digits => (scanCode? q chars width digits c).map fun next => (next, [])
  | .fold q chars ended => scanFold? q chars ended c

/-- The lexemes that end with the text. -/
def Scan.finish? : Scan → Option (List Lexeme)
  | .between | .comment => some []
  | .word chars | .dateBlank chars => some [.word chars.reverse]
  | .open => some [.open]
  | .close => some [.close]
  | .twoMarks _ => some [.string "" false]
  | .string q chars marks =>
    if 3 ≤ marks then some [q.finish (List.replicate (marks - 3) q.mark ++ chars)] else none
  | _ => none

/-- The lexemes of the rest of a text. -/
def lexemesFrom? (s : Scan) : List Char → Option (List Lexeme)
  | [] => s.finish?
  | c :: cs =>
    match scan? s c with
    | none => none
    | some (next, ls) => (lexemesFrom? next cs).map fun rest => ls ++ rest

/-- The lexemes of a text, in front of which a byte order mark does not count. -/
def lexemes? : List Char → Option (List Lexeme)
  | '\ufeff' :: cs => lexemesFrom? .between cs
  | cs => lexemesFrom? .between cs

end SqlTree.Toml
