import SqlTree.Constant.Reader

/-!
# Bytes in hexadecimal digits

Bytes are written as pairs of digits in capitals. They are read from pairs of digits of either case.
The reader of a pair also takes a plus sign in its first place, as it does in front of a number, so
that more texts are read than those of digits.

* `Text.IsHexText`: an even number of hexadecimal digits;
* `Text.IsPairText`: pairs of which the first place may hold a plus sign;
* `Text.pairDigit`: the digit that a place of a pair counts as.

Results:
* `Text.hexBytes?_eq_some_iff`: bytes are read from pairs, and are written with the same digits.
* `Text.hexBytes?_hexBytes`: written bytes are read again.
* `Constant.parse_binary_iff`: which texts are read as bytes, and which of them are no hexadecimal
  digits.
-/

namespace SqlTree

namespace Text

/-! ## Digits -/

/-- A hexadecimal digit of either case. -/
def isHexDigit (c : Char) : Bool :=
  c.isDigit || ('a' ≤ c && c ≤ 'f') || ('A' ≤ c && c ≤ 'F')

/-- The digit that a place of a pair counts as, in capitals. A plus sign counts as a zero. -/
def pairDigit (c : Char) : Char := if c = '+' then '0' else c.toUpper

theorem hexDigit?_isSome (c : Char) : (hexDigit? c).isSome = isHexDigit c := by
  unfold hexDigit? isHexDigit
  have hdigit : c.isDigit = true ↔ '0' ≤ c ∧ c ≤ '9' := by
    simp [Char.isDigit, Char.le_def]
  repeat' split
  all_goals simp_all

theorem toNat_lt_of_isHexDigit {c : Char} (h : isHexDigit c = true) : c.toNat < 103 := by
  simp only [isHexDigit, Char.isDigit, Bool.or_eq_true, Bool.and_eq_true, decide_eq_true_eq,
    Char.le_def, UInt32.le_iff_toNat_le] at h
  show c.val.toNat < 103
  rcases h with (h | h) | h
  · exact Nat.lt_of_le_of_lt h.2 (by decide)
  · exact Nat.lt_of_le_of_lt h.2 (by decide)
  · exact Nat.lt_of_le_of_lt h.2 (by decide)

/-- What holds of the digits below a bound holds of all of them. -/
theorem forall_isHexDigit {P : Char → Prop}
    (h : ∀ m < 103, isHexDigit (Char.ofNat m) = true → P (Char.ofNat m)) {c : Char}
    (hc : isHexDigit c = true) : P c := by
  have hP := h c.toNat (toNat_lt_of_isHexDigit hc)
  rw [Char.ofNat_toNat] at hP
  exact hP hc

/-- A digit has a value, which is written as the digit in capitals. -/
theorem exists_hexDigit? {c : Char} (h : isHexDigit c = true) :
    ∃ n < 16, hexDigit? c = some n ∧ hexDigitUpper n = pairDigit c :=
  forall_isHexDigit (P := fun c => ∃ n < 16, hexDigit? c = some n ∧ hexDigitUpper n = pairDigit c)
    (by decide +kernel) h

/-! ## Pairs -/

theorem hexByte_ofNat {h l : Nat} (hh : h < 16) (hl : l < 16) :
    hexByte (UInt8.ofNat (16 * h + l)) = [hexDigitUpper h, hexDigitUpper l] := by
  have hlt : 16 * h + l < 2 ^ 8 := by omega
  rw [hexByte, UInt8.toNat_ofNat_of_lt' hlt, show (16 * h + l) / 16 = h by omega,
    show (16 * h + l) % 16 = l by omega]

theorem hexByte_injective {a b : UInt8} (h : hexByte a = hexByte b) : a = b := by
  have hupper : ∀ m < 16, ∀ n < 16, hexDigitUpper m = hexDigitUpper n → m = n := by
    decide +kernel
  have ha := a.toNat_lt
  have hb := b.toNat_lt
  simp only [hexByte, List.cons_eq_cons, and_true] at h
  have hhigh := hupper _ (by omega) _ (by omega) h.1
  have hlow := hupper _ (by omega) _ (by omega) h.2
  exact UInt8.toNat_inj.mp (by omega)

/-- The value of a place of a pair that may hold a plus sign, and the digit for it. -/
theorem exists_pairValue {c : Char} (h : isHexDigit c = true ∨ c = '+') :
    ∃ n < 16, (c = '+' ∧ n = 0 ∨ c ≠ '+' ∧ hexDigit? c = some n) ∧
      hexDigitUpper n = pairDigit c := by
  by_cases hplus : c = '+'
  · exact ⟨0, by decide, .inl ⟨hplus, rfl⟩, by rw [hplus]; decide⟩
  · obtain ⟨n, hn, hvalue, hdigit⟩ := exists_hexDigit? (h.resolve_right hplus)
    exact ⟨n, hn, .inr ⟨hplus, hvalue⟩, hdigit⟩

theorem exists_hexPair? {high low : Char} (hhigh : isHexDigit high = true ∨ high = '+')
    (hlow : isHexDigit low = true) :
    ∃ b, hexPair? high low = some b ∧ hexByte b = [pairDigit high, pairDigit low] := by
  obtain ⟨h, hh, hvalue, hdigit⟩ := exists_pairValue hhigh
  obtain ⟨l, hl, hlvalue, hldigit⟩ := exists_hexDigit? hlow
  refine ⟨UInt8.ofNat (16 * h + l), ?_, by rw [hexByte_ofNat hh hl, hdigit, hldigit]⟩
  rcases hvalue with ⟨rfl, rfl⟩ | ⟨hne, hvalue⟩
  · simp [hexPair?, hlvalue]
  · simp [hexPair?, hne, hvalue, hlvalue]

theorem isHexDigit_of_hexPair? {high low : Char} {b : UInt8} (h : hexPair? high low = some b) :
    (isHexDigit high = true ∨ high = '+') ∧ isHexDigit low = true := by
  rw [← hexDigit?_isSome, ← hexDigit?_isSome]
  unfold hexPair? at h
  split at h
  · rename_i hplus
    obtain ⟨l, hl, -⟩ := Option.map_eq_some_iff.mp h
    exact ⟨.inr hplus, by rw [hl]; rfl⟩
  · split at h
    · rename_i hh hl
      exact ⟨.inl (by rw [hh]; rfl), by rw [hl]; rfl⟩
    · contradiction

/-! ## Texts -/

/-- An even number of hexadecimal digits. -/
def IsHexText (cs : List Char) : Prop :=
  cs.length % 2 = 0 ∧ ∀ c ∈ cs, isHexDigit c = true

/-- Pairs of hexadecimal digits. The first place of a pair may hold a plus sign instead. -/
def IsPairText (cs : List Char) : Prop :=
  cs.length % 2 = 0 ∧
    ∀ i c, cs[i]? = some c → isHexDigit c = true ∨ (i % 2 = 0 ∧ c = '+')

theorem isPairText_nil : IsPairText [] := ⟨rfl, by simp⟩

theorem isPairText_cons_cons_iff {high low : Char} {cs : List Char} :
    IsPairText (high :: low :: cs) ↔
      ((isHexDigit high = true ∨ high = '+') ∧ isHexDigit low = true) ∧ IsPairText cs := by
  simp only [IsPairText, List.length_cons]
  constructor
  · rintro ⟨hlength, h⟩
    refine ⟨⟨?_, ?_⟩, by omega, fun i c hc => ?_⟩
    · simpa using h 0 high rfl
    · simpa using h 1 low rfl
    · have := h (i + 2) c hc
      rwa [Nat.add_mod_right] at this
  · rintro ⟨⟨hhigh, hlow⟩, hlength, h⟩
    refine ⟨by omega, fun i c hc => ?_⟩
    match i with
    | 0 =>
      obtain rfl : high = c := Option.some.inj hc
      simpa using hhigh
    | 1 =>
      obtain rfl : low = c := Option.some.inj hc
      exact .inl hlow
    | i + 2 =>
      rw [Nat.add_mod_right]
      exact h i c hc

/-- Texts of digits are the texts of pairs without a plus sign. -/
theorem isHexText_iff {cs : List Char} : IsHexText cs ↔ IsPairText cs ∧ '+' ∉ cs := by
  refine ⟨fun ⟨hlength, h⟩ => ⟨⟨hlength, fun i c hc => ?_⟩, fun hplus => ?_⟩,
    fun ⟨⟨hlength, h⟩, hplus⟩ => ⟨hlength, fun c hc => ?_⟩⟩
  · exact .inl (h c (List.mem_of_getElem? hc))
  · exact absurd (h '+' hplus) (by decide)
  · obtain ⟨i, hi⟩ := List.mem_iff_getElem?.mp hc
    refine (h i c hi).resolve_right fun hsign => hplus ?_
    rw [← hsign.2]
    exact hc

theorem hexBytes_cons (b : UInt8) (bs : List UInt8) :
    hexBytes (b :: bs) = hexByte b ++ hexBytes bs :=
  List.flatMap_cons

theorem hexBytes_injective {as bs : List UInt8} (h : hexBytes as = hexBytes bs) : as = bs := by
  induction as generalizing bs with
  | nil =>
    have hlength := congrArg List.length h
    rw [length_hexBytes, length_hexBytes, List.length_nil] at hlength
    exact (List.length_eq_zero_iff.mp (by omega)).symm
  | cons a as ih =>
    cases bs with
    | nil => contradiction
    | cons b bs =>
      rw [hexBytes_cons, hexBytes_cons] at h
      obtain ⟨hbyte, hbytes⟩ := List.append_inj h rfl
      rw [hexByte_injective hbyte, ih hbytes]

theorem exists_hexBytes? :
    ∀ {cs : List Char}, IsPairText cs →
      ∃ bs, hexBytes? cs = some bs ∧ hexBytes bs = cs.map pairDigit
  | [], _ => ⟨[], rfl, rfl⟩
  | [_], h => absurd h.1 (by simp)
  | high :: low :: rest, h => by
    obtain ⟨⟨hhigh, hlow⟩, hrest⟩ := isPairText_cons_cons_iff.mp h
    obtain ⟨b, hb, hbyte⟩ := exists_hexPair? hhigh hlow
    obtain ⟨bs, hbs, hbytes⟩ := exists_hexBytes? hrest
    refine ⟨b :: bs, by rw [hexBytes?, hb, hbs], ?_⟩
    rw [hexBytes_cons, hbyte, hbytes]
    rfl

theorem isPairText_of_hexBytes? :
    ∀ {cs : List Char} {bs : List UInt8}, hexBytes? cs = some bs → IsPairText cs
  | [], _, _ => isPairText_nil
  | [_], _, h => nomatch h
  | high :: low :: rest, _, h => by
    rw [hexBytes?] at h
    split at h
    · rename_i hb hrest
      exact isPairText_cons_cons_iff.mpr
        ⟨isHexDigit_of_hexPair? hb, isPairText_of_hexBytes? hrest⟩
    · contradiction

/-- Bytes are read exactly from texts of pairs, and they are written with the digits of the pairs in
their order. -/
theorem hexBytes?_eq_some_iff {cs : List Char} {bs : List UInt8} :
    hexBytes? cs = some bs ↔ IsPairText cs ∧ hexBytes bs = cs.map pairDigit := by
  constructor
  · intro h
    have hpairs := isPairText_of_hexBytes? h
    obtain ⟨as, has, hdigits⟩ := exists_hexBytes? hpairs
    obtain rfl : as = bs := Option.some.inj (has.symm.trans h)
    exact ⟨hpairs, hdigits⟩
  · rintro ⟨hpairs, hdigits⟩
    obtain ⟨as, has, hdigits'⟩ := exists_hexBytes? hpairs
    rw [has, hexBytes_injective (hdigits'.trans hdigits.symm)]

theorem isHexDigit_hexDigitUpper {n : Nat} (h : n < 16) :
    isHexDigit (hexDigitUpper n) = true ∧ pairDigit (hexDigitUpper n) = hexDigitUpper n := by
  decide +revert

theorem isHexDigit_of_mem_hexBytes {c : Char} {bs : List UInt8} (h : c ∈ hexBytes bs) :
    isHexDigit c = true ∧ pairDigit c = c := by
  obtain ⟨b, -, hc⟩ := List.mem_flatMap.mp h
  have hb := b.toNat_lt
  simp only [hexByte, List.mem_cons, List.not_mem_nil, or_false] at hc
  rcases hc with rfl | rfl
  · exact isHexDigit_hexDigitUpper (by omega)
  · exact isHexDigit_hexDigitUpper (by omega)

/-- Written bytes are read again. -/
theorem hexBytes?_hexBytes (bs : List UInt8) : hexBytes? (hexBytes bs) = some bs := by
  have htext : IsHexText (hexBytes bs) :=
    ⟨by rw [length_hexBytes]; omega, fun _ hc => (isHexDigit_of_mem_hexBytes hc).1⟩
  have hdigits : (hexBytes bs).map pairDigit = hexBytes bs :=
    (List.map_congr_left fun _ hc => (isHexDigit_of_mem_hexBytes hc).2).trans (List.map_id _)
  exact hexBytes?_eq_some_iff.mpr ⟨(isHexText_iff.mp htext).1, hdigits.symm⟩

end Text

/-! ## Constants -/

namespace Constant

open Text

/-- The characters of a text that stand for bytes: those between the blanks around the text, without
an optional mark in front. -/
def byteDigits (text : String) : List Char := dropHexMark (trim text).toList

theorem parse_binary_of_eq_some {text : String} {bytes : List UInt8}
    (h : hexBytes? (byteDigits text) = some bytes) : parse .binary text = .ok (.binary bytes) := by
  have hread : ofText? .binary (trim text) = some (.binary bytes) := by
    rw [ofText?, ← byteDigits, h, Option.map_some]
  rw [parse, hread]

theorem parse_binary_of_eq_none {text : String} (h : hexBytes? (byteDigits text) = none) :
    parse .binary text = .error (.invalidConstant .binary (.unreadable (trim text))) := by
  have hread : ofText? .binary (trim text) = none := by
    rw [ofText?, ← byteDigits, h, Option.map_none]
  rw [parse, hread]

theorem parse_binary_eq_ok_iff {text : String} {c : Constant} :
    parse .binary text = .ok c ↔
      IsPairText (byteDigits text) ∧
        ∃ bytes, c = .binary bytes ∧ hexBytes bytes = (byteDigits text).map pairDigit := by
  constructor
  · intro h
    cases hbytes : hexBytes? (byteDigits text) with
    | none =>
      rw [parse_binary_of_eq_none hbytes] at h
      contradiction
    | some bytes =>
      rw [parse_binary_of_eq_some hbytes] at h
      obtain rfl : .binary bytes = c := Except.ok.inj h
      obtain ⟨hpairs, hdigits⟩ := hexBytes?_eq_some_iff.mp hbytes
      exact ⟨hpairs, bytes, rfl, hdigits⟩
  · rintro ⟨hpairs, bytes, rfl, hdigits⟩
    exact parse_binary_of_eq_some (hexBytes?_eq_some_iff.mpr ⟨hpairs, hdigits⟩)

/-- A text is read as bytes exactly if it consists of pairs, blanks around it and one mark in front
apart. The bytes are the pairs in their order, so that they are written with the same digits, in
capitals. Another text is refused with the text between its blanks. So the texts that are read are
those of an even number of hexadecimal digits, unless some pair begins with a plus sign. -/
theorem parse_binary_iff (text : String) :
    (∀ c, parse .binary text = .ok c ↔
      IsPairText (byteDigits text) ∧
        ∃ bytes, c = .binary bytes ∧ hexBytes bytes = (byteDigits text).map pairDigit) ∧
    ((∃ c, parse .binary text = .ok c) ↔ IsPairText (byteDigits text)) ∧
    (parse .binary text = .error (.invalidConstant .binary (.unreadable (trim text))) ↔
      ¬IsPairText (byteDigits text)) ∧
    (((∃ c, parse .binary text = .ok c) ↔ IsHexText (byteDigits text)) ↔
      ¬(IsPairText (byteDigits text) ∧ '+' ∈ byteDigits text)) := by
  have hread : (∃ c, parse .binary text = .ok c) ↔ IsPairText (byteDigits text) := by
    constructor
    · rintro ⟨c, hc⟩
      exact ((parse_binary_eq_ok_iff).mp hc).1
    · intro hpairs
      obtain ⟨bytes, hbytes, -⟩ := exists_hexBytes? hpairs
      exact ⟨_, parse_binary_of_eq_some hbytes⟩
  refine ⟨fun c => parse_binary_eq_ok_iff, hread, ?_, ?_⟩
  · constructor
    · intro herror hpairs
      obtain ⟨c, hc⟩ := hread.mpr hpairs
      rw [herror] at hc
      cases hc
    · intro hpairs
      refine parse_binary_of_eq_none (Option.eq_none_iff_forall_ne_some.mpr fun bytes hbytes => ?_)
      exact hpairs (isPairText_of_hexBytes? hbytes)
  · rw [hread, isHexText_iff]
    constructor
    · rintro h ⟨hpairs, hplus⟩
      exact (h.mp hpairs).2 hplus
    · exact fun h => ⟨fun hpairs => ⟨hpairs, fun hplus => h ⟨hpairs, hplus⟩⟩, And.left⟩

/-- A plus sign and a digit are read as a byte, though a plus sign is no hexadecimal digit. -/
theorem parse_binary_plus :
    ¬((∃ c, parse .binary "+f" = .ok c) ↔ IsHexText (byteDigits "+f")) := by
  have hdigits : byteDigits "+f" = ['+', 'f'] := by decide +kernel
  have hread : hexBytes? (byteDigits "+f") = some [15] := by rw [hdigits]; rfl
  intro h
  have htext := h.mp ⟨_, parse_binary_of_eq_some hread⟩
  rw [hdigits] at htext
  exact absurd (htext.2 '+' List.mem_cons_self) (by decide)

end Constant

end SqlTree
