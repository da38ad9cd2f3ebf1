import SqlTree.Number.Range
import SqlTree.Text.Digits

/-!
# The fewest digits that read back

A positive binary number `mantissa * 2 ^ exponent` stands for every real number that is nearer to
it than to its neighbours. `Shortest.digits` finds the decimal number with the fewest digits in
that interval and, among those, the one nearest to the exact value; of two equally near ones the
even one. All arithmetic is on natural numbers.

* `Interval`: the reals that read back as one number, as fractions over one denominator;
* `Interval.pick?`: the point of a decimal grid in the interval, if there is one;
* `Shortest.digits`: the digits and the power of ten of the first grid that has such a point.
-/

namespace SqlTree.Number

/-- The reals between `low / unit` and `high / unit` around `value / unit`. -/
structure Interval where
  low : Nat
  value : Nat
  high : Nat
  unit : Nat
  /-- Whether the two ends belong to the interval. -/
  closed : Bool

namespace Interval

/-- The reals that round to `mantissa * 2 ^ exponent`. The neighbour below a power of two is only
half as far away, unless the number is among the smallest ones (`narrow` says which). The ends
round to the number exactly if its mantissa is even. -/
def around (mantissa : Nat) (exponent : Int) (narrow : Bool) : Interval :=
  let below := if narrow then 1 else 2
  let grow := 2 ^ (exponent - 2).toNat
  { low := (4 * mantissa - below) * grow
    value := 4 * mantissa * grow
    high := (4 * mantissa + 2) * grow
    unit := 2 ^ (2 - exponent).toNat
    closed := mantissa % 2 == 0 }

/-- Whether `d` steps of `step / unit` lie in the interval. -/
def has (i : Interval) (d step : Nat) : Bool :=
  if i.closed then i.low ≤ d * step && d * step ≤ i.high
  else i.low < d * step && d * step < i.high

/-- The interval with every fraction written over a `k` times larger denominator. -/
def scale (i : Interval) (k : Nat) : Interval :=
  { i with low := i.low * k, value := i.value * k, high := i.high * k, unit := i.unit * k }

/-- The number of steps of `step / unit` that lies in the interval: one of the two next to the
value, the nearer one if both do, the even one if they are equally near. -/
def pick? (i : Interval) (step : Nat) : Option Nat :=
  let d := i.value / step
  let toLower := i.value - d * step
  let toUpper := (d + 1) * step - i.value
  match i.has d step, i.has (d + 1) step with
  | true, true =>
    if toLower < toUpper ∨ (toLower = toUpper ∧ d % 2 = 0) then some d else some (d + 1)
  | true, false => some d
  | false, true => some (d + 1)
  | false, false => none

/-- The number of decimal digits of a natural number; zero has none. -/
def digitCount (n : Nat) : Nat := if n = 0 then 0 else (Nat.toDigits 10 n).length

/-- The power of ten above the value: `10 ^ (magnitude - 1) ≤ value / unit < 10 ^ magnitude`. -/
def magnitude (i : Interval) : Int :=
  if i.unit ≤ i.value then Int.ofNat (digitCount (i.value / i.unit))
  else 1 - Int.ofNat (digitCount ((i.unit - 1) / i.value))

/-- The point in the interval on the grid of powers `10 ^ place`. -/
def onGrid? (i : Interval) (place : Int) : Option Nat :=
  (i.scale (10 ^ (-place).toNat)).pick? (i.unit * 10 ^ place.toNat)

end Interval

/-- The digits of a decimal number and the power of ten they are counted in. -/
structure Shortest where
  digits : Nat
  place : Int
deriving DecidableEq, Repr

namespace Shortest

/-- Tries the grids with `count`, `count + 1`, ... digits, at most `tries` of them. -/
def search (i : Interval) : Nat → Nat → Option Shortest
  | 0, _ => none
  | tries + 1, count =>
    let place := i.magnitude - Int.ofNat count
    match i.onGrid? place with
    | some d => some ⟨d, place⟩
    | none => search i tries (count + 1)

/-- A number without the zeros at its end, and how many there were; at most `tries` are taken. -/
def dropZeros : Nat → Nat → Int → Shortest
  | 0, d, place => ⟨d, place⟩
  | tries + 1, d, place =>
    if d ≠ 0 ∧ d % 10 = 0 then dropZeros tries (d / 10) (place + 1) else ⟨d, place⟩

/-- The shortest decimal number that reads back as the positive number
`mantissa * 2 ^ exponent`. Seventeen digits always suffice for a mantissa below `2 ^ 53`. -/
def ofBinary (mantissa : Nat) (exponent : Int) (narrow : Bool) : Shortest :=
  let i := Interval.around mantissa exponent narrow
  match search i 17 1 with
  | some s => dropZeros 18 s.digits s.place
  | none => ⟨0, 0⟩

end Shortest

/-! ## Binary numbers of 64 bits -/

/-- The sign bit of a float. -/
def isNegative (x : Float) : Bool := x.toBits.toNat / 2 ^ 63 == 1

/-- The shortest digits of the magnitude of a finite float; `none` for a zero. -/
def shortest? (x : Float) : Option Shortest :=
  let bits := x.toBits.toNat % 2 ^ 63
  let fraction := bits % 2 ^ 52
  let biased : Nat := bits / 2 ^ 52
  if bits = 0 then none
  else if biased = 0 then some (Shortest.ofBinary fraction (-1074) false)
  else
    some (Shortest.ofBinary (fraction + 2 ^ 52) (Int.ofNat biased - 1075)
      (fraction == 0 && biased != 1))

end SqlTree.Number
