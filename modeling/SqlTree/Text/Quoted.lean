/-!
# Quoting by doubling

A quoted text stands between an opening and a closing character; inside it the closing
character is written twice. `readQuoted?` is the reader that goes with it: a doubled closing
character stands for one, a single one ends the text.
-/

namespace SqlTree.Text

/-- A text in which `closing` is written twice. -/
def doubled (closing : Char) (cs : List Char) : List Char :=
  cs.flatMap fun c => if c = closing then [c, c] else [c]

/-- A text between `opening` and `closing`, with `closing` doubled inside. -/
def quoted (opening closing : Char) (s : String) : String :=
  String.ofList (opening :: doubled closing s.toList ++ [closing])

/-- The quoted characters up to the closing character, and what follows it. -/
def readBody? (closing : Char) : List Char → Option (List Char × List Char)
  | [] => none
  | c :: cs =>
    if c = closing then
      match cs with
      | [] => some ([], [])
      | c' :: cs' =>
        if c' = closing then (readBody? closing cs').map fun (body, rest) => (closing :: body, rest)
        else some ([], c' :: cs')
    else (readBody? closing cs).map fun (body, rest) => (c :: body, rest)

/-- Reads one quoted text from the front of the characters. -/
def readQuoted? (opening closing : Char) : List Char → Option (List Char × List Char)
  | [] => none
  | c :: cs => if c = opening then readBody? closing cs else none

@[simp] theorem doubled_nil (closing : Char) : doubled closing [] = [] := rfl

theorem doubled_cons (closing c : Char) (cs : List Char) :
    doubled closing (c :: cs) =
      (if c = closing then [c, c] else [c]) ++ doubled closing cs := rfl

end SqlTree.Text
