import SqlTree.Text.Hex

/-!
# Guids

A guid is a number of 128 bits. It is written as 32 hexadecimal digits in groups of 8, 4, 4, 4
and 12; it is read with or without the hyphens, and the grouped form also in braces or after the
`urn:uuid:` prefix.
-/

namespace SqlTree

/-- A globally unique identifier. -/
structure Guid where
  bits : BitVec 128
deriving DecidableEq

namespace Guid

/-- The sizes of the digit groups between hyphens. -/
def groups : List Nat := [8, 4, 4, 4, 12]

/-- Cuts a list into groups of the given sizes. -/
def cut {α : Type} : List Nat → List α → List (List α)
  | [], _ => []
  | n :: ns, xs => xs.take n :: cut ns (xs.drop n)

/-- The text of a guid: small digits in groups. -/
def text (g : Guid) : String :=
  String.ofList (['-'].intercalate (cut groups (Text.hexDigits 32 g.bits.toNat)))

/-- The guid of exactly 32 hexadecimal digits. -/
def ofDigits? (cs : List Char) : Option Guid :=
  if cs.length = 32 then (Text.continueHex? 0 cs).map fun n => ⟨BitVec.ofNat 128 n⟩ else none

/-- The guid of hexadecimal digits in groups with hyphens between them. -/
def ofGroups? (cs : List Char) : Option Guid :=
  let parts := cs.splitOn '-'
  if parts.map List.length = groups then ofDigits? parts.flatten else none

/-- The prefix of a guid that is written as a resource name. -/
def resourcePrefix : List Char := "urn:uuid:".toList

/-- Reads a guid in any of its forms. The resource prefix may be in either case. -/
def ofText? (cs : List Char) : Option Guid :=
  if cs.length = 32 then ofDigits? cs
  else if cs.length = 36 then ofGroups? cs
  else if cs.length = 38 ∧ cs.head? = some '{' ∧ cs.getLast? = some '}' then
    ofGroups? (cs.drop 1).dropLast
  else if cs.length = 45 ∧ (cs.take 9).map Char.toLower = resourcePrefix then
    ofGroups? (cs.drop 9)
  else none

end Guid

end SqlTree
