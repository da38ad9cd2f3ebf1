import SqlTree.Text.Digits

/-!
# Table aliases

Short names for tables. The first alias for a letter is the letter itself, later ones carry a
number: `c`, `c2`, `c3`. The letter of a table is its first one, in lower case; tables that do not
begin with a letter of the ASCII alphabet share the letter `t`. The numbers of a letter are counted
in 32 bits.

* `AliasSession.next`: the next alias for a table;
* `AliasSession.reset`: the session for a new statement.
-/

namespace SqlTree

/-- The letter of the aliases of a table. -/
def aliasLetter (table : String) : Char :=
  match table.toList with
  | c :: _ => if c.isAlpha then c.toLower else 't'
  | [] => 't'

/-- The alias for a letter and a number; the number one is not written. -/
def aliasText (letter : Char) (n : UInt32) : String :=
  String.ofList (if n = 1 then [letter] else letter :: Text.digits n.toNat)

/-- The letters of the aliases that were handed out, the last one first. -/
structure AliasSession where
  letters : List Char := []
deriving DecidableEq

namespace AliasSession

/-- A session without aliases. -/
def empty : AliasSession := ⟨[]⟩

/-- The next alias for a table, and the session afterwards. -/
def next (s : AliasSession) (table : String) : String × AliasSession :=
  let letter := aliasLetter table
  (aliasText letter (.ofNat (s.letters.count letter + 1)), ⟨letter :: s.letters⟩)

/-- The session after all its aliases were forgotten. -/
def reset (_ : AliasSession) : AliasSession := empty

end AliasSession

end SqlTree
