/-!
# Hexadecimal digits

Bytes as pairs of hexadecimal digits. Writing uses one letter case throughout; reading takes
both cases.
-/

namespace SqlTree.Text

/-- The hexadecimal digit of a number below sixteen, in capitals. -/
def hexDigitUpper (n : Nat) : Char :=
  if n < 10 then Char.ofNat ('0'.toNat + n) else Char.ofNat ('A'.toNat + (n - 10))

/-- The hexadecimal digit of a number below sixteen, in small letters. -/
def hexDigitLower (n : Nat) : Char :=
  if n < 10 then Char.ofNat ('0'.toNat + n) else Char.ofNat ('a'.toNat + (n - 10))

/-- The value of a hexadecimal digit of either case. -/
def hexDigit? (c : Char) : Option Nat :=
  if '0' ≤ c ∧ c ≤ '9' then some (c.toNat - '0'.toNat)
  else if 'a' ≤ c ∧ c ≤ 'f' then some (c.toNat - 'a'.toNat + 10)
  else if 'A' ≤ c ∧ c ≤ 'F' then some (c.toNat - 'A'.toNat + 10)
  else none

/-- A byte as two digits in capitals. -/
def hexByte (b : UInt8) : List Char :=
  [hexDigitUpper (b.toNat / 16), hexDigitUpper (b.toNat % 16)]

/-- Bytes as digit pairs in capitals. -/
def hexBytes (bytes : List UInt8) : List Char := bytes.flatMap hexByte

/-- The byte of a digit pair. The first place may hold a plus sign, which counts as nothing. -/
def hexPair? (high low : Char) : Option UInt8 :=
  if high = '+' then (hexDigit? low).map UInt8.ofNat
  else
    match hexDigit? high, hexDigit? low with
    | some h, some l => some (UInt8.ofNat (16 * h + l))
    | _, _ => none

/-- The bytes of a text of digit pairs; `none` for an odd length or another character. -/
def hexBytes? : List Char → Option (List UInt8)
  | [] => some []
  | [_] => none
  | high :: low :: rest =>
    match hexPair? high low, hexBytes? rest with
    | some b, some bs => some (b :: bs)
    | _, _ => none

/-- The value of a run of hexadecimal digits that continues the number `n`. -/
def continueHex? (n : Nat) : List Char → Option Nat
  | [] => some n
  | c :: cs => (hexDigit? c).bind fun d => continueHex? (16 * n + d) cs

/-- The last `width` hexadecimal digits of a number, in small letters. -/
def hexDigits : Nat → Nat → List Char
  | 0, _ => []
  | width + 1, n => hexDigits width (n / 16) ++ [hexDigitLower (n % 16)]

@[simp] theorem length_hexDigits (width n : Nat) : (hexDigits width n).length = width := by
  induction width generalizing n with
  | zero => rfl
  | succ w ih => simp [hexDigits, ih]

@[simp] theorem length_hexBytes (bytes : List UInt8) :
    (hexBytes bytes).length = 2 * bytes.length := by
  induction bytes with
  | nil => rfl
  | cons b bs ih =>
    simp only [hexBytes, List.flatMap_cons, List.length_append, List.length_cons] at ih ⊢
    rw [ih]
    simp [hexByte]
    omega

end SqlTree.Text
