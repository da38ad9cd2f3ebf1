/-!
# Decimal digits

Natural numbers written in ten digits: their text, the same text filled up with zeros to a
least width, and the value of a run of digits.
-/

namespace SqlTree.Text

/-- The decimal digits of a number, without leading zeros; zero is `0`. -/
def digits (n : Nat) : List Char := Nat.toDigits 10 n

/-- The decimal digits of a number, with zeros in front up to `width` characters. -/
def paddedDigits (width n : Nat) : List Char :=
  List.replicate (width - (digits n).length) '0' ++ digits n

/-- The value of a decimal digit. -/
def digit? (c : Char) : Option Nat :=
  if c.isDigit then some (c.toNat - '0'.toNat) else none

/-- The value of a run of digits that continues the number `n`; `none` at any other character. -/
def continueNumber? (n : Nat) : List Char → Option Nat
  | [] => some n
  | c :: cs => (digit? c).bind fun d => continueNumber? (10 * n + d) cs

/-- The value of a non-empty run of digits. -/
def number? : List Char → Option Nat
  | [] => none
  | cs => continueNumber? 0 cs

/-- The text of an integer: its digits, after a minus sign if it is negative. -/
def signedDigits (n : Int) : List Char :=
  if n < 0 then '-' :: digits n.natAbs else digits n.natAbs

/-- The value of digits with an optional sign in front. -/
def integer? : List Char → Option Int
  | '-' :: cs => (number? cs).map fun n => -(n : Int)
  | '+' :: cs => (number? cs).map Int.ofNat
  | cs => (number? cs).map Int.ofNat

/-- The longest run of at most `width` leading digits, and the rest. -/
def spanDigits : Nat → List Char → List Char × List Char
  | 0, cs => ([], cs)
  | _ + 1, [] => ([], [])
  | width + 1, c :: cs =>
    if c.isDigit then
      let (ds, rest) := spanDigits width cs
      (c :: ds, rest)
    else ([], c :: cs)

end SqlTree.Text
