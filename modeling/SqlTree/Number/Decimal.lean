import SqlTree.Number.Range
import SqlTree.Text.Digits

/-!
# Decimal numbers

A decimal number is a sign and a magnitude counted in a power of ten: `magnitude / 10 ^ scale`,
with a magnitude below `2 ^ 96` and at most 28 places. Equal values of different scales are
different decimals, because the places are kept in the text, and so are the two signs of a zero: a
zero as written has none, but a negative number whose places are rounded away keeps its sign.

* `Decimal.text`: sign, integer digits, and exactly `scale` places;
* `Decimal.plain?`: reads digits with an optional point; a digit that no longer fits is rounded;
* `Decimal.ofText?`: reads plain notation or, failing that, notation with an exponent.
-/

namespace SqlTree.Number

/-- The number `magnitude / 10 ^ scale`, or its negative. -/
structure Decimal where
  negative : Bool
  magnitude : Nat
  scale : Nat
  magnitude_lt : magnitude < 2 ^ 96
  scale_le : scale ≤ 28
deriving DecidableEq

namespace Decimal

/-- The decimal of a sign, a magnitude and a scale, if these are within the limits. -/
def make? (negative : Bool) (magnitude scale : Nat) : Option Decimal :=
  if h : magnitude < 2 ^ 96 ∧ scale ≤ 28 then some ⟨negative, magnitude, scale, h.1, h.2⟩
  else none

/-- The digits of a natural number, counted in `10 ^ scale`, with a point if there are places. -/
def magnitudeText (n scale : Nat) : List Char :=
  let whole := Text.digits (n / 10 ^ scale)
  if scale = 0 then whole else whole ++ '.' :: Text.paddedDigits scale (n % 10 ^ scale)

/-- Sign, integer digits, a point and all places. -/
def text (d : Decimal) : String :=
  let sign := if d.negative then ['-'] else []
  String.ofList (sign ++ magnitudeText d.magnitude d.scale)

/-! ## Plain notation -/

/-- The digits read so far. -/
structure Progress where
  mantissa : Nat := 0
  scale : Nat := 0
  /-- Whether a digit was read. -/
  started : Bool := false
  /-- Whether the point was read. -/
  pointed : Bool := false

/-- A digit or, as a separator, an underscore. -/
def isDigitOrSeparator (c : Char) : Bool := c.isDigit || c == '_'

/-- The number so far with one more unit in the last place. If that exceeds the coefficient, a
place is given up; without places there is no such number. -/
def roundUp? (mantissa scale : Nat) : Option (Nat × Nat) :=
  if mantissa + 1 < 2 ^ 96 then some (mantissa + 1, scale)
  else if scale = 0 then none
  else some ((mantissa + 1 + 4) / 10, scale - 1)

/-- Whether the places are full and the number without its last digit is far below the words of 64
bits. Such a number is closed: a separator after it is taken for a digit that does not fit, which is
zero, while after a larger number the next digit decides. -/
def Progress.isClosed (p : Progress) : Bool :=
  p.pointed && p.scale == 28 && p.mantissa / 10 < (2 ^ 64 - 1) / 10 - 255

/-- Reads the rest of the digits. The first place that does not fit rounds the number, half a
unit upwards; what follows it must be digits or separators and does not count. -/
def continue? (p : Progress) : List Char → Option (Nat × Nat)
  | [] => if p.started then some (p.mantissa, p.scale) else none
  | c :: cs =>
    if c = '_' then
      if p.isClosed then if cs.all isDigitOrSeparator then some (p.mantissa, p.scale) else none
      else if p.started then continue? p cs
      else none
    else if c = '.' then if p.pointed then none else continue? { p with pointed := true } cs
    else
      match Text.digit? c with
      | none => none
      | some d =>
        let next := 10 * p.mantissa + d
        if p.pointed then
          if next < 2 ^ 96 ∧ p.scale < 28 then
            continue? { p with mantissa := next, scale := p.scale + 1, started := true } cs
          else if cs.all isDigitOrSeparator then
            if 5 ≤ d then roundUp? p.mantissa p.scale else some (p.mantissa, p.scale)
          else none
        else if next < 2 ^ 96 then continue? { p with mantissa := next, started := true } cs
        else none

/-- The sign in front of a number, and the rest. -/
def takeSign : List Char → Bool × List Char
  | '-' :: cs => (true, cs)
  | '+' :: cs => (false, cs)
  | cs => (false, cs)

/-- Reads digits with an optional sign, at most one point and separators. The sign of a zero is
dropped. -/
def plain? (cs : List Char) : Option Decimal :=
  let (negative, rest) := takeSign cs
  (continue? {} rest).bind fun (mantissa, scale) =>
    make? (negative && mantissa != 0) mantissa scale

/-! ## Notation with an exponent -/

/-- A magnitude without its last `places` digits, the last dropped one rounding it. -/
def dropPlaces (magnitude places : Nat) : Nat :=
  if places = 0 then magnitude
  else
    magnitude / 10 ^ places + if 5 ≤ magnitude / 10 ^ (places - 1) % 10 then 1 else 0

/-- The number divided by `10 ^ places`. Places beyond the limit are rounded away; the sign stays,
also in front of a zero that is left. -/
def shiftRight? (d : Decimal) (places : Nat) : Option Decimal :=
  if 28 < places then none
  else
    let excess := d.scale + places - 28
    make? d.negative (dropPlaces d.magnitude excess) (d.scale + places - excess)

/-- The number multiplied by `10 ^ places`: places of its own are used up first. -/
def shiftLeft? (d : Decimal) (places : Nat) : Option Decimal :=
  if places ≤ d.scale then make? d.negative d.magnitude (d.scale - places)
  else if 28 < places then none
  else make? d.negative (d.magnitude * 10 ^ (places - d.scale)) 0

/-- The digits of an exponent, with an optional plus sign. -/
def exponent? : List Char → Option Nat
  | '+' :: cs => Text.number? cs
  | cs => Text.number? cs

/-- The number times the power of ten that the text after the exponent mark names. -/
def applyExponent? (d : Decimal) : List Char → Option Decimal
  | '-' :: cs => (exponent? cs).bind d.shiftRight?
  | cs => (exponent? cs).bind d.shiftLeft?

/-- The mark before an exponent. -/
def isExponentMark (c : Char) : Bool := c == 'e' || c == 'E'

/-- Reads plain notation and, if the text is not plain, a plain number with an exponent. -/
def ofText? (cs : List Char) : Option Decimal :=
  match plain? cs with
  | some d => some d
  | none =>
    match cs.span fun c => !isExponentMark c with
    | (_, []) => none
    | (base, _ :: exponent) => (plain? base).bind (applyExponent? · exponent)

end Decimal

end SqlTree.Number
