import SqlTree.Data.Value
import SqlTree.Text.Digits

/-!
# Numbers in data texts

A number is digits with an optional minus sign, an optional fraction and an optional exponent.
Without fraction and exponent it is a whole number, if it fits in 64 bits with its sign and is not
a negative zero; all other numbers are floats.

The significand of a float is cut to the leading digits that fit in a word of 64 bits. It is rounded
to a float, which is then multiplied or divided by a power of ten. A number beyond the largest
float is none.
-/

namespace SqlTree.Data

/-- A number in its parts. -/
structure Numeral where
  negative : Bool
  whole : List Nat
  fraction : Option (List Nat)
  exponent : Option Int

/-! ## Grammar -/

/-- The leading digits of a text as numbers, and the rest. -/
def takeDigits (cs : List Char) : List Nat × List Char :=
  ((cs.takeWhile Char.isDigit).map fun c => c.toNat - '0'.toNat, cs.dropWhile Char.isDigit)

/-- The value of digits. -/
def digitsValue (ds : List Nat) : Nat := ds.foldl (fun n d => 10 * n + d) 0

/-- An optional fraction, and the rest. -/
def takeFraction? : List Char → Option (Option (List Nat) × List Char)
  | '.' :: cs =>
    let (ds, rest) := takeDigits cs
    if ds.isEmpty then none else some (some ds, rest)
  | cs => some (none, cs)

/-- The value of a whole text of digits. -/
def exponentDigits? (cs : List Char) : Option Nat :=
  let (ds, rest) := takeDigits cs
  if ds.isEmpty ∨ rest ≠ [] then none else some (digitsValue ds)

/-- An optional exponent at the end of a number. -/
def exponent? : List Char → Option (Option Int)
  | [] => some none
  | c :: cs =>
    if c = 'e' ∨ c = 'E' then
      match cs with
      | '-' :: cs => (exponentDigits? cs).map fun n => some (-(n : Int))
      | '+' :: cs => (exponentDigits? cs).map fun n => some (n : Int)
      | cs => (exponentDigits? cs).map fun n => some (n : Int)
    else none

/-- Reads a whole text as a number in its parts. Only a zero begins with the digit zero. -/
def numeral? (cs : List Char) : Option Numeral := do
  let (negative, cs) := match cs with
    | '-' :: cs => (true, cs)
    | cs => (false, cs)
  let (whole, cs) := takeDigits cs
  if whole.isEmpty ∨ (whole.head? = some 0 ∧ 1 < whole.length) then none
  let (fraction, cs) ← takeFraction? cs
  let exponent ← exponent? cs
  return { negative, whole, fraction, exponent }

/-! ## Values -/

/-- Appends digits to a significand as long as it fits in a word. Gives the significand, and how
many digits were taken and how many were left. -/
def absorb (significand taken : Nat) : List Nat → Nat × Nat × Nat
  | [] => (significand, taken, 0)
  | d :: ds =>
    if 10 * significand + d < 2 ^ 64 then absorb (10 * significand + d) (taken + 1) ds
    else (significand, taken, ds.length + 1)

/-- The largest power of ten that is a float. -/
def largestPower : Nat := 308

/-- A power of ten as a float. -/
def powerOfTen (n : Nat) : Float := Float.ofScientific 1 false n

/-- A float divided by `10 ^ n`, in steps of powers that are floats. -/
def divideByPower (x : Float) (n : Nat) : Float :=
  if n ≤ largestPower then x / powerOfTen n
  else if x == 0.0 then x
  else divideByPower (x / powerOfTen largestPower) (n - largestPower)
termination_by n
decreasing_by simp only [largestPower] at *; omega

/-- A float times a power of ten, unless it is too large. -/
def scaleByPower? (x : Float) (exponent : Int) : Option Float :=
  if exponent < 0 then some (divideByPower x exponent.natAbs)
  else if x == 0.0 then some x
  else if (largestPower : Int) < exponent then none
  else
    let y := x * powerOfTen exponent.natAbs
    if y.isFinite then some y else none

/-- The float of a number. -/
def Numeral.float? (n : Numeral) : Option Float :=
  let (significand, _, left) := absorb 0 0 n.whole
  let (significand, taken, _) := absorb significand 0 (n.fraction.getD [])
  let exponent := (left : Int) - taken + n.exponent.getD 0
  (scaleByPower? (UInt64.ofNat significand).toFloat exponent).map fun x =>
    if n.negative then -x else x

/-- The float of a number as a value, which is unreadable if there is no such float. -/
def Numeral.floatValue (n : Numeral) : Value :=
  match n.float? with
  | some x => .float x
  | none => .unreadable

/-- The value of a number. -/
def Numeral.value (n : Numeral) : Value :=
  let m := digitsValue n.whole
  if n.fraction = none ∧ n.exponent = none then
    if n.negative = false ∧ m < 2 ^ 64 then .int m
    else if n.negative ∧ 0 < m ∧ m ≤ 2 ^ 63 then .int (-(m : Int))
    else n.floatValue
  else n.floatValue

/-- Reads a whole text as a number. -/
def readNumber? (cs : List Char) : Option Value := (numeral? cs).map Numeral.value

end SqlTree.Data
