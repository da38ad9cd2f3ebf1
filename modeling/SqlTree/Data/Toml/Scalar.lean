import SqlTree.Data.NumberReader
import SqlTree.Data.Toml.Moment
import SqlTree.Text.Hex

/-!
# Words in TOML texts

A word stands for a truth value, a number or a moment. The digits of a number may be grouped by
underscores. A whole number is written in base 10, 16, 8 or 2; it may be as large as a word of 128
bits. A moment is a table with one nameless field, which no record has.

* `Toml.scalar?`: the value of a word.
-/

namespace SqlTree.Toml

/-! ## Digits -/

/-- The value of a digit of a base. -/
def digitOfBase? (base : Nat) (c : Char) : Option Nat :=
  (Text.hexDigit? c).filter fun d => d < base

/-- Whether a character is a digit of a base. -/
def isDigitOfBase (base : Nat) (c : Char) : Bool := (digitOfBase? base c).isSome

/-- A text without the underscores between two digits of a base; there is no other underscore. -/
def ungroup? (base : Nat) : List Char → Option (List Char)
  | [] => some []
  | a :: '_' :: b :: cs =>
    if isDigitOfBase base a ∧ isDigitOfBase base b then (ungroup? base (b :: cs)).map (a :: ·)
    else none
  | c :: cs => if c = '_' then none else (ungroup? base cs).map (c :: ·)

/-- The value of one digit or more. -/
def digitsOfBase? (base : Nat) (cs : List Char) : Option Nat :=
  if cs = [] then none
  else cs.foldlM (fun n c => (digitOfBase? base c).map fun d => base * n + d) 0

/-! ## Numbers -/

/-- A whole number, if it fits in a word of 128 bits with or without a sign. -/
def whole? (n : Int) : Option Value :=
  if -(2 ^ 127) ≤ n ∧ n < 2 ^ 128 then some (.int n) else none

/-- The float next to a number, if there is one. Numbers whose size alone puts them beyond all
floats, or below half of the smallest one, are not computed. -/
def nearestFloat? (n : Data.Numeral) : Option Float :=
  let places := n.fraction.getD []
  let digits := Data.digitsValue (n.whole ++ places)
  let exponent := n.exponent.getD 0 - (places.length : Int)
  let size := exponent + (Text.digits digits).length
  let magnitude : Option Float :=
    if digits = 0 ∨ size < -400 then some 0.0
    else if 400 < size then none
    else some (Float.ofScientific digits (exponent < 0) exponent.natAbs)
  (magnitude.filter Float.isFinite).map fun x => if n.negative then -x else x

/-- The value of a number in base 10. -/
def numeralValue? (n : Data.Numeral) : Option Value :=
  if n.fraction = none ∧ n.exponent = none then
    let m : Int := Data.digitsValue n.whole
    whole? (if n.negative then -m else m)
  else (nearestFloat? n).map .float

/-- A number in base 10. A plus sign is dropped, and no other sign follows it. -/
def decimal? : List Char → Option Value
  | '+' :: '-' :: _ => none
  | '+' :: cs => (Data.numeral? cs).bind numeralValue?
  | cs => (Data.numeral? cs).bind numeralValue?

/-- A whole number in another base than 10. -/
def basedNumber? (base : Nat) (cs : List Char) : Option Value :=
  ((ungroup? base cs).bind (digitsOfBase? base)).bind fun n => whole? n

/-- A number. -/
def number? : List Char → Option Value
  | '0' :: 'x' :: cs => basedNumber? 16 cs
  | '0' :: 'o' :: cs => basedNumber? 8 cs
  | '0' :: 'b' :: cs => basedNumber? 2 cs
  | cs => (ungroup? 10 cs).bind decimal?

/-! ## Words -/

/-- The words for truth values and for the floats that are no numbers. -/
def namedValue? : String → Option Value
  | "true" => some (.bool true)
  | "false" => some (.bool false)
  | "inf" | "+inf" => some (.float (1.0 / 0.0))
  | "-inf" => some (.float (-1.0 / 0.0))
  | "nan" | "+nan" | "-nan" => some (.float (0.0 / 0.0))
  | _ => none

/-- A moment as a value. -/
def momentValue (cs : List Char) : Value := .object [("", .string (String.ofList cs))]

/-- The value of a word. -/
def scalar? (cs : List Char) : Option Value :=
  (namedValue? (String.ofList cs)).or
    ((number? cs).or (if isMoment cs then some (momentValue cs) else none))

end SqlTree.Toml
