import SqlTree.Text.Alphanumeric

/-!
# Texts with references to variables

A reference is a dollar sign and a name. The name stands between braces, or it is the longest run
of letters, digits and underscores after the sign. A dollar sign with neither after it stands for
itself; so does any other character.

* `Template.pieces`: the characters and references of a text;
* `Template.expand`: the text with the values of the variables in it.
-/

namespace SqlTree

/-- A character, or a reference to a variable. -/
inductive Piece where
  | char (c : Char)
  | reference (name : String)
deriving DecidableEq

namespace Template

/-- Whether a character may be part of a name without braces. -/
def isNameChar (c : Char) : Bool := Text.isAlphanumeric c || c == '_'

/-- The pieces of a text. An opening brace without a closing one reaches to the end of the text. -/
def pieces : List Char → List Piece
  | [] => []
  | '$' :: '\x7b' :: cs =>
    .reference (String.ofList (cs.takeWhile (· != '\x7d'))) ::
      pieces ((cs.dropWhile (· != '\x7d')).drop 1)
  | '$' :: cs =>
    if cs.takeWhile isNameChar = [] then .char '$' :: pieces cs
    else .reference (String.ofList (cs.takeWhile isNameChar)) :: pieces (cs.dropWhile isNameChar)
  | c :: cs => .char c :: pieces cs
termination_by cs => cs.length
decreasing_by
  all_goals simp only [List.length_cons, List.length_drop]
  · have := (List.dropWhile_suffix (l := cs) (· != '\x7d')).length_le
    omega
  · omega
  · have := (List.dropWhile_suffix (l := cs) isNameChar).length_le
    omega
  · omega

/-- The names that a text refers to. -/
def names (text : String) : List String :=
  (pieces text.toList).filterMap fun
    | .char _ => none
    | .reference name => some name

/-- The characters that a piece stands for, or the name of a variable that has no value. -/
def expandPiece (valueOf : String → Option String) : Piece → Except String (List Char)
  | .char c => .ok [c]
  | .reference name =>
    match valueOf name with
    | some value => .ok value.toList
    | none => .error name

/-- A text with the values of its variables, which are not searched for references again. The first
variable without a value is an error. -/
def expand (valueOf : String → Option String) (text : String) : Except String String := do
  let parts ← (pieces text.toList).mapM (expandPiece valueOf)
  return String.ofList parts.flatten

end Template

end SqlTree
