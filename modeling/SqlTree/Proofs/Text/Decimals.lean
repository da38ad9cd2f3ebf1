import SqlTree.Number.Decimal
import SqlTree.Proofs.Text.Digits

/-!
# Reading decimals

The text of a decimal is read again as a decimal of the same magnitude and the same number of
places. All that is lost is the sign of a zero, which plain notation does not keep.

Results:
* `Number.Decimal.continue?_digits`: a run of digits continues the number in front of it.
* `Number.Decimal.ofText?_text`: decimals are read again, zeros without a sign.
-/

namespace SqlTree.Number.Decimal

open Text

/-- The decimal itself or, if it is a zero with a minus sign, the zero without it. -/
def withoutZeroSign (d : Decimal) : Decimal :=
  { d with negative := d.negative && d.magnitude != 0 }

theorem withoutZeroSign_eq_or (d : Decimal) : d.withoutZeroSign = d ∨
    d.negative = true ∧ d.magnitude = 0 ∧ d.withoutZeroSign = { d with negative := false } := by
  by_cases h : d.negative = true ∧ d.magnitude = 0
  · exact .inr ⟨h.1, h.2, by simp [withoutZeroSign, h.2]⟩
  · refine .inl ?_
    obtain ⟨negative, magnitude, scale, hmagnitude, hscale⟩ := d
    cases negative <;> simp_all [withoutZeroSign]

/-- Digits continue a number as long as it fits. After the point each of them is a place. -/
theorem continue?_digits {ds : List Char} (hds : ∀ c ∈ ds, c.isDigit = true) (rest : List Char)
    (mantissa scale : Nat) (started pointed : Bool) (hstarted : started = true ∨ ds ≠ [])
    (hlt : Nat.ofDigitChars 10 ds mantissa < 2 ^ 96)
    (hscale : pointed = true → scale + ds.length ≤ 28) :
    continue? ⟨mantissa, scale, started, pointed⟩ (ds ++ rest) =
      continue? ⟨Nat.ofDigitChars 10 ds mantissa, if pointed then scale + ds.length else scale,
        true, pointed⟩ rest := by
  induction ds generalizing mantissa scale started with
  | nil =>
    obtain rfl : started = true := by simpa using hstarted
    simp
  | cons c ds ih =>
    obtain ⟨hc, hds⟩ := List.forall_mem_cons.mp hds
    have hseparator : c ≠ '_' := fun h => absurd hc (by rw [h]; decide)
    have hpoint : c ≠ '.' := fun h => absurd hc (by rw [h]; decide)
    rw [Nat.ofDigitChars_cons] at hlt
    have hnext : 10 * mantissa + (c.toNat - '0'.toNat) < 2 ^ 96 :=
      Nat.lt_of_le_of_lt (le_ofDigitChars ds _) hlt
    rw [List.cons_append, continue?, if_neg hseparator, if_neg hpoint, digit?_of_isDigit hc,
      Nat.ofDigitChars_cons]
    cases pointed with
    | false =>
      have hrest := ih hds _ scale true (.inl rfl) hlt (by simp)
      simp only [Bool.false_eq_true, if_false, if_pos hnext] at hrest ⊢
      exact hrest
    | true =>
      have hroom : scale + 1 + ds.length ≤ 28 := by
        have := hscale rfl
        rw [List.length_cons] at this
        omega
      have hplace : scale < 28 := by omega
      have hrest := ih hds _ (scale + 1) true (.inl rfl) hlt (fun _ => hroom)
      simp only [if_true, if_pos (And.intro hnext hplace), List.length_cons] at hrest ⊢
      rw [hrest, Nat.add_assoc, Nat.add_comm 1]

theorem takeSign_of_isDigit {ds : List Char} (hds : ∀ c ∈ ds, c.isDigit = true) (hne : ds ≠ [])
    (rest : List Char) : takeSign (ds ++ rest) = (false, ds ++ rest) := by
  obtain ⟨d, ds, rfl⟩ := List.exists_cons_of_ne_nil hne
  have hd := hds d List.mem_cons_self
  have hminus : d ≠ '-' := fun h => absurd hd (by rw [h]; decide)
  have hplus : d ≠ '+' := fun h => absurd hd (by rw [h]; decide)
  rw [List.cons_append]
  unfold takeSign
  split
  · rename_i heq
    exact absurd (List.cons_eq_cons.mp heq).1 hminus
  · rename_i heq
    exact absurd (List.cons_eq_cons.mp heq).1 hplus
  · rfl

/-- The digits of a magnitude are read again, with their places. -/
theorem continue?_magnitudeText {magnitude scale : Nat} (hmagnitude : magnitude < 2 ^ 96)
    (hscale : scale ≤ 28) :
    continue? {} (magnitudeText magnitude scale) = some (magnitude, scale) := by
  have hwhole : ∀ c ∈ digits (magnitude / 10 ^ scale), c.isDigit = true :=
    fun _ => isDigit_of_mem_digits
  have hne := digits_ne_nil (magnitude / 10 ^ scale)
  have hle : magnitude / 10 ^ scale < 2 ^ 96 :=
    Nat.lt_of_le_of_lt (Nat.div_le_self _ _) hmagnitude
  have hstart (rest : List Char) : continue? {} (digits (magnitude / 10 ^ scale) ++ rest) =
      continue? ⟨magnitude / 10 ^ scale, 0, true, false⟩ rest := by
    have := continue?_digits hwhole rest 0 0 false false (.inr hne) (by rwa [ofDigitChars_digits])
      (by simp)
    rwa [ofDigitChars_digits] at this
  unfold magnitudeText
  by_cases hzero : scale = 0
  · subst hzero
    rw [if_pos rfl, ← List.append_nil (digits _), hstart]
    simp [continue?]
  · have hplaces : ∀ c ∈ paddedDigits scale (magnitude % 10 ^ scale), c.isDigit = true :=
      fun _ => isDigit_of_mem_paddedDigits
    have hlength : (paddedDigits scale (magnitude % 10 ^ scale)).length = scale :=
      length_paddedDigits (Nat.pos_of_ne_zero hzero) (Nat.mod_lt _ (Nat.pow_pos (by decide)))
    have hvalue : Nat.ofDigitChars 10 (paddedDigits scale (magnitude % 10 ^ scale))
        (magnitude / 10 ^ scale) = magnitude := by
      rw [Nat.ofDigitChars_eq_ofDigitChars_zero, ofDigitChars_paddedDigits, hlength]
      exact Nat.div_add_mod magnitude (10 ^ scale)
    have hrest : continue? ⟨magnitude / 10 ^ scale, 0, true, true⟩
        (paddedDigits scale (magnitude % 10 ^ scale)) = some (magnitude, scale) := by
      have := continue?_digits hplaces [] (magnitude / 10 ^ scale) 0 true true (.inl rfl)
        (by rwa [hvalue]) (by omega)
      rw [List.append_nil, hvalue, hlength] at this
      simpa [continue?] using this
    rw [if_neg hzero, hstart, continue?]
    simpa using hrest

theorem plain?_text (d : Decimal) : plain? d.text.toList = some d.withoutZeroSign := by
  obtain ⟨negative, magnitude, scale, hmagnitude, hscale⟩ := d
  have hsign : takeSign ((if negative then ['-'] else []) ++ magnitudeText magnitude scale) =
      (negative, magnitudeText magnitude scale) := by
    cases negative with
    | true => rfl
    | false =>
      have hwhole : ∀ c ∈ digits (magnitude / 10 ^ scale), c.isDigit = true :=
        fun _ => isDigit_of_mem_digits
      have hne := digits_ne_nil (magnitude / 10 ^ scale)
      show takeSign (magnitudeText magnitude scale) = (false, magnitudeText magnitude scale)
      unfold magnitudeText
      dsimp only
      split
      · simpa using takeSign_of_isDigit hwhole hne []
      · exact takeSign_of_isDigit hwhole hne _
  rw [text, String.toList_ofList, plain?, hsign]
  simp only [continue?_magnitudeText hmagnitude hscale, Option.bind_some]
  exact dif_pos ⟨hmagnitude, hscale⟩

/-- A decimal is read again from its text, a zero without a sign. -/
theorem ofText?_text (d : Decimal) : ofText? d.text.toList = some d.withoutZeroSign := by
  rw [ofText?, plain?_text]

end SqlTree.Number.Decimal
