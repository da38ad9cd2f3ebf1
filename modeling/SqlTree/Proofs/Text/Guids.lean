import Mathlib.Algebra.GroupWithZero.Nat
import SqlTree.Constant.Guid
import SqlTree.Number.Range

/-!
# Reading guids

The text of a guid, which is digits in groups, is read again as the guid.

Results:
* `Text.continueHex?_hexDigits`: hexadecimal digits stand for their number.
* `Guid.ofText?_text`: guids are read again.
-/

namespace SqlTree

namespace Text

theorem hexDigit?_hexDigitLower {n : Nat} (h : n < 16) : hexDigit? (hexDigitLower n) = some n := by
  decide +revert

theorem hexDigitLower_ne_hyphen {n : Nat} (h : n < 16) : hexDigitLower n ≠ '-' := by
  decide +revert

theorem continueHex?_append (cs ds : List Char) (n : Nat) :
    continueHex? n (cs ++ ds) = (continueHex? n cs).bind (continueHex? · ds) := by
  induction cs generalizing n with
  | nil => rfl
  | cons c cs ih =>
    rw [List.cons_append, continueHex?, continueHex?]
    cases hexDigit? c with
    | none => rfl
    | some d => exact ih _

/-- Hexadecimal digits continue a number by as many places. -/
theorem continueHex?_hexDigits (width n m : Nat) :
    continueHex? m (hexDigits width n) = some (16 ^ width * m + n % 16 ^ width) := by
  induction width generalizing n with
  | zero => simp [hexDigits, continueHex?, Nat.mod_one]
  | succ width ih =>
    have hlast : 16 * (n / 16 % 16 ^ width) + n % 16 = n % 16 ^ (width + 1) := by
      rw [Nat.pow_succ, Nat.mul_comm (16 ^ width), Nat.mod_mul]
      omega
    rw [hexDigits, continueHex?_append, ih, Option.bind_some, continueHex?,
      hexDigit?_hexDigitLower (Nat.mod_lt n (by decide)), Option.bind_some, continueHex?, ← hlast,
      Nat.pow_succ]
    congr 1
    rw [Nat.mul_add, ← Nat.mul_assoc, Nat.mul_comm 16, Nat.add_assoc]

theorem hyphen_notMem_hexDigits (width n : Nat) : '-' ∉ hexDigits width n := by
  induction width generalizing n with
  | zero => simp [hexDigits]
  | succ width ih =>
    have hlast := hexDigitLower_ne_hyphen (Nat.mod_lt n (by decide : 0 < 16))
    simp [hexDigits, ih, Ne.symm hlast]

end Text

namespace Guid

open Text

theorem flatten_cut {ns : List Nat} {cs : List Char} (h : cs.length ≤ ns.sum) :
    (cut ns cs).flatten = cs := by
  induction ns generalizing cs with
  | nil =>
    obtain rfl : cs = [] := by simpa using h
    rfl
  | cons n ns ih =>
    rw [List.sum_cons] at h
    rw [cut, List.flatten_cons, ih (by rw [List.length_drop]; omega), List.take_append_drop]

theorem map_length_cut {ns : List Nat} {cs : List Char} (h : ns.sum ≤ cs.length) :
    (cut ns cs).map List.length = ns := by
  induction ns generalizing cs with
  | nil => rfl
  | cons n ns ih =>
    rw [List.sum_cons] at h
    rw [cut, List.map_cons, ih (by rw [List.length_drop]; omega), List.length_take,
      Nat.min_eq_left (by omega)]

/-- A guid is read again from its text. -/
theorem ofText?_text (g : Guid) : ofText? g.text.toList = some g := by
  have hlength : (hexDigits 32 g.bits.toNat).length = 32 := length_hexDigits 32 _
  have hflatten : (cut groups (hexDigits 32 g.bits.toNat)).flatten = hexDigits 32 g.bits.toNat :=
    flatten_cut (Nat.le_of_eq hlength)
  have hsizes : (cut groups (hexDigits 32 g.bits.toNat)).map List.length = groups :=
    map_length_cut (Nat.le_of_eq hlength.symm)
  have hyphen : ∀ l ∈ cut groups (hexDigits 32 g.bits.toNat), '-' ∉ l := by
    intro l hl hmem
    have := List.mem_flatten_of_mem hl hmem
    rw [hflatten] at this
    exact hyphen_notMem_hexDigits 32 _ this
  have hsplit := List.splitOn_intercalate '-' hyphen (List.cons_ne_nil _ _)
  have htext : (['-'].intercalate (cut groups (hexDigits 32 g.bits.toNat))).length = 36 := by
    simp [cut, groups, List.intercalate]
  have hbits : continueHex? 0 (hexDigits 32 g.bits.toNat) = some g.bits.toNat := by
    rw [continueHex?_hexDigits, Nat.mod_eq_of_lt (by simpa using g.bits.isLt)]
    simp
  rw [text, String.toList_ofList, ofText?, if_neg (by omega), if_pos htext, ofGroups?]
  simp only [hsplit, hsizes, hflatten, if_true, ofDigits?, hlength, hbits, Option.map_some]
  rw [BitVec.ofNat_toNat, BitVec.setWidth_eq]

end Guid

end SqlTree
