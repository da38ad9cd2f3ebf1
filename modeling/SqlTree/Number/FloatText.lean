import SqlTree.Number.Shortest

/-!
# The text of a float

A finite float is written with its shortest digits, either positionally or with an exponent. The
decisions of the notation are one record, `Notation`; `sqlNotation` is the one used for literals.
-/

namespace SqlTree.Number

/-- Where positional notation begins and ends. A number is placed by the power of ten above it. -/
structure FloatNotation where
  /-- Numbers below `10 ^ highest` are written positionally. -/
  highest : Int
  /-- Numbers that are at least `10 ^ lowest` are written positionally. -/
  lowest : Int

/-- Literals are positional from `0.00001` up to, but without, `10 ^ 16`. -/
def sqlNotation : FloatNotation := ⟨16, -5⟩

/-- The text of decimal digits times a power of ten. Positional numbers have a point with a digit
on both sides; the others have one digit before the point, no point after a single digit, and an
exponent without a plus sign. -/
def FloatNotation.layout (n : FloatNotation) (s : Shortest) : List Char :=
  let ds := Text.digits s.digits
  let top := ds.length + s.place
  if 0 ≤ s.place ∧ top ≤ n.highest then
    ds ++ List.replicate s.place.toNat '0' ++ ['.', '0']
  else if 0 < top ∧ top ≤ n.highest then
    ds.take top.toNat ++ '.' :: ds.drop top.toNat
  else if n.lowest < top ∧ top ≤ 0 then
    '0' :: '.' :: List.replicate (-top).toNat '0' ++ ds
  else
    let mantissa := match ds with
      | d :: e :: es => d :: '.' :: e :: es
      | short => short
    mantissa ++ 'e' :: Text.signedDigits (top - 1)

/-- The text of a finite float. Both zeros are written with one digit after the point. -/
def floatText (x : Float) : String :=
  let sign := if isNegative x then ['-'] else []
  match shortest? x with
  | none => String.ofList (sign ++ ['0', '.', '0'])
  | some s => String.ofList (sign ++ sqlNotation.layout s)

/-- The word for a float that is not finite. -/
def nonFiniteText (x : Float) : String :=
  if x.isNaN then "NaN" else if isNegative x then "-inf" else "inf"

end SqlTree.Number
