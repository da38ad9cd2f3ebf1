import SqlTree.Syntax.Expr
import SqlTree.Text.Digits

/-!
# Fresh column names

Names of output columns are told apart without regard to the case of ASCII letters. A fresh name is
a stem, or the stem with the first number from two that makes it differ from every name in use.
-/

namespace SqlTree

/-- Whether two names differ at most in the case of ASCII letters. -/
def sameName (a b : String) : Bool := a.toLower == b.toLower

/-- Whether an output column has a name. -/
def SelectItem.isNamed (i : SelectItem) (name : String) : Bool :=
  match i.outputName with
  | some n => sameName n name
  | none => false

/-- Whether some output column has a name. -/
def isTaken (items : List SelectItem) (name : String) : Bool := items.any (·.isNamed name)

/-- A stem with a number at its end. -/
def numberedName (stem : String) (n : Nat) : String :=
  stem ++ String.ofList (Text.digits n)

/-- The names to choose from: the stem, and the stem with the numbers from two on. One name more
than there are columns is enough. -/
def candidateNames (items : List SelectItem) (stem : String) : List String :=
  stem :: (List.range items.length).map fun k => numberedName stem (k + 2)

/-- The first candidate that no output column has. -/
def freshName (items : List SelectItem) (stem : String) : String :=
  ((candidateNames items stem).find? fun name => !isTaken items name).getD stem

theorem length_candidateNames (items : List SelectItem) (stem : String) :
    (candidateNames items stem).length = items.length + 1 := by
  simp [candidateNames]

end SqlTree
