import SqlTree.Proofs.Stored.Constants

/-!
# Reading the texts of values

Numbers, dates and guids are written as texts without blanks at their ends, so that nothing of them
is trimmed, and the readers of constants read them again. The reader of numbers tries integers first
and keeps no sign of a zero; the reader of dates tries moments first, which a date alone is not.

* `Text.Tight`: texts that neither begin nor end with a blank;
* `Number.asRead`: a number as it is read from its text.

Results:
* `Text.Tight.trim_eq`: a text without blanks at its ends is not trimmed.
* `Constant.number?_int`, `Constant.number?_text`: the texts of integers and decimals are read
  again.
* `Constant.date?_text`, `Constant.date?_chars`: so are those of moments and of dates alone.
* `Guid.plain_of_mem_text`: the text of a guid needs no quoting.
-/

namespace SqlTree

/-! ## Blanks -/

namespace Text

/-- A text that neither begins nor ends with a blank. -/
def Tight (cs : List Char) : Prop :=
  (∀ c ∈ cs.head?, isBlank c = false) ∧ ∀ c ∈ cs.getLast?, isBlank c = false

theorem tight_of_forall {cs : List Char} (h : ∀ c ∈ cs, isBlank c = false) : Tight cs :=
  ⟨fun c hc => h c (List.mem_of_head? hc), fun c hc => h c (List.mem_of_getLast? hc)⟩

theorem Tight.append {xs ys : List Char} (hxs : Tight xs) (hys : Tight ys) (hx : xs ≠ [])
    (hy : ys ≠ []) (between : List Char) : Tight (xs ++ between ++ ys) := by
  refine ⟨fun c hc => hxs.1 c ?_, fun c hc => hys.2 c ?_⟩
  · rwa [List.append_assoc, List.head?_append, List.head?_eq_some_head hx, Option.some_or,
      ← List.head?_eq_some_head hx] at hc
  · rwa [List.getLast?_append, List.getLast?_eq_some_getLast hy, Option.some_or,
      ← List.getLast?_eq_some_getLast hy] at hc

theorem trimLeft_of_head? {cs : List Char} (h : ∀ c ∈ cs.head?, isBlank c = false) :
    trimLeft cs = cs := by
  cases cs with
  | nil => rfl
  | cons c cs => exact trimLeft_of_not_blank (h c rfl)

/-- A text without blanks at its ends is not trimmed. -/
theorem Tight.trim_eq {text : String} (h : Tight text.toList) : trim text = text := by
  have hreverse : ∀ c ∈ text.toList.reverse.head?, isBlank c = false := by
    rw [List.head?_reverse]
    exact h.2
  rw [trim, trimBoth, trimLeft_of_head? h.1, trimLeft_of_head? hreverse, List.reverse_reverse,
    String.ofList_toList]

end Text

/-! ## Numbers -/

namespace Text

theorem isBlank_of_mem_paddedDigits {width n : Nat} {c : Char} (h : c ∈ paddedDigits width n) :
    isBlank c = false :=
  isBlank_of_isDigit (isDigit_of_mem_paddedDigits h)

theorem isBlank_of_mem_cons_paddedDigits {mark c : Char} {width n : Nat}
    (hmark : isBlank mark = false) (h : c ∈ mark :: paddedDigits width n) : isBlank c = false := by
  rcases List.mem_cons.mp h with rfl | h
  · exact hmark
  · exact isBlank_of_mem_paddedDigits h

theorem isBlank_of_mem_digits {n : Nat} {c : Char} (h : c ∈ digits n) : isBlank c = false :=
  isBlank_of_isDigit (isDigit_of_mem_digits h)

theorem number?_digits (n : Nat) : number? (digits n) = some n := by
  rw [number?_of_isDigit (fun _ => isDigit_of_mem_digits) (digits_ne_nil n), ofDigitChars_digits]

theorem continueNumber?_eq_none {cs : List Char} (h : ∃ c ∈ cs, c.isDigit = false) (n : Nat) :
    continueNumber? n cs = none := by
  induction cs generalizing n with
  | nil => simp at h
  | cons c cs ih =>
    rw [continueNumber?, digit?]
    split
    · rename_i hc
      obtain ⟨d, hd, hdigit⟩ := h
      rcases List.mem_cons.mp hd with rfl | hd
      · rw [hdigit] at hc
        contradiction
      · exact ih ⟨d, hd, hdigit⟩ _
    · rfl

/-- A text with another character than digits is no number. -/
theorem number?_eq_none {cs : List Char} (h : ∃ c ∈ cs, c.isDigit = false) :
    number? cs = none := by
  cases cs with
  | nil => rfl
  | cons c cs => exact continueNumber?_eq_none h 0

/-- A minus sign or nothing. -/
def minusSign (negative : Bool) : List Char := if negative then ['-'] else []

/-- A number behind a minus sign or nothing. -/
def signed (negative : Bool) (n : Nat) : Int := if negative then -n else n

/-- A number behind a minus sign or nothing is read as an integer of this sign. -/
theorem integer?_minusSign (negative : Bool) {cs : List Char}
    (h : ∀ c ∈ cs.head?, c.isDigit = true) :
    integer? (minusSign negative ++ cs) = (number? cs).map (signed negative) := by
  cases negative with
  | true =>
    show ((number? cs).bind fun n => some (n : Int)).map (fun n => -n) = _
    cases number? cs <;> rfl
  | false =>
    show integer? cs = _
    unfold integer?
    split
    · exact absurd (h '-' rfl) (by decide)
    · exact absurd (h '+' rfl) (by decide)
    · rfl

theorem isBlank_of_mem_minusSign {negative : Bool} {c : Char} (h : c ∈ minusSign negative) :
    isBlank c = false := by
  cases negative with
  | true =>
    rw [List.mem_singleton.mp h]
    decide
  | false => contradiction

theorem isDigit_of_head?_digits {n : Nat} {c : Char} (rest : List Char)
    (h : c ∈ (digits n ++ rest).head?) : c.isDigit = true := by
  rw [List.head?_append, List.head?_eq_some_head (digits_ne_nil n), Option.some_or] at h
  obtain rfl := Option.some.inj h
  exact isDigit_of_mem_digits (List.head_mem _)

theorem signedDigits_eq (n : Int) : signedDigits n = minusSign (n < 0) ++ digits n.natAbs := by
  unfold signedDigits minusSign
  split <;> simp_all

theorem tight_signedDigits (n : Int) : Tight (signedDigits n) := by
  rw [signedDigits_eq]
  refine tight_of_forall fun c hc => ?_
  rcases List.mem_append.mp hc with hc | hc
  · exact isBlank_of_mem_minusSign hc
  · exact isBlank_of_mem_digits hc

/-- An integer is read again from its digits. -/
theorem integer?_signedDigits (n : Int) : integer? (signedDigits n) = some n := by
  have hhead : ∀ c ∈ (digits n.natAbs).head?, c.isDigit = true := fun c hc =>
    isDigit_of_head?_digits [] (by rwa [List.append_nil])
  have hvalue : signed (n < 0) n.natAbs = n := by
    unfold signed
    by_cases hn : n < 0
    · rw [if_pos (decide_eq_true hn)]
      omega
    · rw [if_neg (by simpa using hn)]
      omega
  rw [signedDigits_eq, integer?_minusSign _ hhead, number?_digits, Option.map_some, hvalue]

end Text

namespace Number

open Text

/-- A decimal in units of its last place. -/
def Decimal.units (d : Decimal) : Int := signed d.negative d.magnitude

/-- A number as it is read from its text. A decimal without places is read as an integer if it fits
in 64 bits, and no zero keeps a minus sign. -/
def asRead : Number → Number
  | .decimal d =>
    if d.scale = 0 ∧ fitsInt64 d.units = true then .int (Int64.ofInt d.units)
    else .decimal d.withoutZeroSign
  | n => n

theorem Decimal.toList_text (d : Decimal) :
    d.text.toList = minusSign d.negative ++ magnitudeText d.magnitude d.scale := by
  rw [text, String.toList_ofList]
  rfl

theorem Decimal.isDigit_of_head?_magnitudeText {n scale : Nat} {c : Char}
    (h : c ∈ (magnitudeText n scale).head?) : c.isDigit = true := by
  unfold magnitudeText at h
  dsimp only at h
  split at h
  · exact isDigit_of_head?_digits [] (by rwa [List.append_nil])
  · exact isDigit_of_head?_digits _ h

theorem Decimal.isBlank_of_mem_magnitudeText {n scale : Nat} {c : Char}
    (h : c ∈ magnitudeText n scale) : isBlank c = false := by
  unfold magnitudeText at h
  dsimp only at h
  split at h
  · exact isBlank_of_mem_digits h
  · rcases List.mem_append.mp h with h | h
    · exact isBlank_of_mem_digits h
    · exact isBlank_of_mem_cons_paddedDigits (by decide) h

theorem Decimal.tight_text (d : Decimal) : Tight d.text.toList := by
  rw [toList_text]
  refine tight_of_forall fun c hc => ?_
  rcases List.mem_append.mp hc with hc | hc
  · exact isBlank_of_mem_minusSign hc
  · exact isBlank_of_mem_magnitudeText hc

/-- The integer in the text of a decimal, if it has no places. -/
theorem Decimal.integer?_text (d : Decimal) :
    integer? d.text.toList = if d.scale = 0 then some d.units else none := by
  rw [toList_text, integer?_minusSign _ fun _ => isDigit_of_head?_magnitudeText]
  unfold magnitudeText
  by_cases hscale : d.scale = 0
  · simp [hscale, number?_digits, units]
  · have hpoint : number? (digits (d.magnitude / 10 ^ d.scale) ++
        '.' :: paddedDigits d.scale (d.magnitude % 10 ^ d.scale)) = none :=
      number?_eq_none ⟨'.', by simp, by decide⟩
    simp [hscale, hpoint]

end Number

namespace Constant

open Text

theorem number?_int (n : Int64) : number? (signedDigits n.toInt) = some (.int n) := by
  rw [number?, integer?_signedDigits]
  simp [fitsInt64_toInt]

/-- The text of a decimal is read as a number. -/
theorem number?_text (d : Number.Decimal) :
    number? d.text.toList = some (Number.decimal d).asRead := by
  rw [number?, Number.Decimal.integer?_text, Number.Decimal.ofText?_text, Number.asRead]
  by_cases hscale : d.scale = 0
  · by_cases hfits : Number.fitsInt64 d.units = true
    · simp [hscale, hfits]
    · simp [hscale, hfits]
  · simp [hscale]

end Constant

/-! ## Dates -/

namespace Calendar

open Text

theorem isBlank_of_mem_yearText {year : Int} {c : Char} (h : c ∈ yearText year) :
    isBlank c = false := by
  unfold yearText at h
  dsimp only at h
  repeat' split at h
  · exact isBlank_of_mem_cons_paddedDigits (by decide) h
  · exact isBlank_of_mem_cons_paddedDigits (by decide) h
  · exact isBlank_of_mem_paddedDigits h

theorem isBlank_of_mem_fractionText {nano : Nat} {c : Char} (h : c ∈ fractionText nano) :
    isBlank c = false := by
  have hpoint {width n : Nat} (h : c ∈ '.' :: paddedDigits width n) : isBlank c = false :=
    isBlank_of_mem_cons_paddedDigits (by decide) h
  unfold fractionText at h
  repeat' split at h
  · contradiction
  · exact hpoint h
  · exact hpoint h
  · exact hpoint h

theorem Date.isBlank_of_mem_chars {date : Date} {c : Char} (h : c ∈ date.chars) :
    isBlank c = false := by
  simp only [chars, List.mem_append, List.mem_cons] at h
  rcases h with (h | rfl | h) | rfl | h
  · exact isBlank_of_mem_yearText h
  · decide
  · exact isBlank_of_mem_paddedDigits h
  · decide
  · exact isBlank_of_mem_paddedDigits h

theorem TimeOfDay.isBlank_of_mem_chars {time : TimeOfDay} {c : Char} (h : c ∈ time.chars) :
    isBlank c = false := by
  simp only [chars, List.mem_append, List.mem_cons] at h
  rcases h with ((h | rfl | h) | rfl | h) | h
  · exact isBlank_of_mem_paddedDigits h
  · decide
  · exact isBlank_of_mem_paddedDigits h
  · decide
  · exact isBlank_of_mem_paddedDigits h
  · exact isBlank_of_mem_fractionText h

theorem Date.tight_text (date : Date) : Tight date.text.toList := by
  rw [text, String.toList_ofList]
  exact tight_of_forall fun _ => isBlank_of_mem_chars

/-- The text of a moment has a blank between date and time, but none at its ends. -/
theorem Timestamp.tight_text (t : Timestamp) : Tight (t.text ' ').toList := by
  have htight : Tight (t.date.chars ++ [' '] ++ t.time.chars) := by
    refine (tight_of_forall fun _ => Date.isBlank_of_mem_chars).append
      (tight_of_forall fun _ => TimeOfDay.isBlank_of_mem_chars) ?_ ?_ [' ']
    · simp [Date.chars]
    · simp [TimeOfDay.chars]
  rwa [text, String.toList_ofList, ← List.singleton_append, ← List.append_assoc]

/-- A moment is read again from a text with a blank between date and time. -/
theorem Timestamp.ofText?_spaced (t : Timestamp) :
    Timestamp.ofText? .spaced (t.text ' ').toList = some t.asRead := by
  have htime : trimLeft t.time.chars = t.time.chars :=
    trimLeft_of_head? fun c hc => TimeOfDay.isBlank_of_mem_chars (List.mem_of_head? hc)
  have hdivide : TimestampFormat.spaced.divide? (' ' :: t.time.chars) = some t.time.chars := by
    show some (trimLeft (' ' :: t.time.chars)) = some t.time.chars
    rw [trimLeft_cons, if_pos (by decide), htime]
  rw [Timestamp.text, String.toList_ofList, Timestamp.ofText?]
  simp only [dateField?_chars, Option.bind_eq_bind, Option.bind_some, hdivide, timeField?_chars]
  rfl

theorem dateField?_of_chars (loose : Bool) (date : Date) :
    dateField? loose date.chars = some (date, []) := by
  have := dateField?_chars loose date []
  rwa [List.append_nil] at this

/-- A date alone is no moment. -/
theorem Timestamp.ofText?_date (date : Date) :
    Timestamp.ofText? .spaced date.chars = none ∧
      Timestamp.ofText? .lettered date.chars = none := by
  constructor
  · rw [Timestamp.ofText?, dateField?_of_chars]
    rfl
  · rw [Timestamp.ofText?, dateField?_of_chars]
    rfl

theorem Date.ofText?_chars (date : Date) : Date.ofText? date.chars = some date := by
  rw [Date.ofText?, dateField?_of_chars]

end Calendar

namespace Constant

/-- The text of a moment is read as the moment, as far as it tells it. -/
theorem date?_text (t : Calendar.Timestamp) : date? (t.text ' ').toList = some t.asRead := by
  rw [date?, Calendar.Timestamp.ofText?_spaced]
  rfl

/-- The text of a date is read as its first moment. -/
theorem date?_chars (date : Calendar.Date) : date? date.chars = some (.startOf date) := by
  obtain ⟨hspaced, hlettered⟩ := Calendar.Timestamp.ofText?_date date
  rw [date?, hspaced, hlettered, Calendar.Date.ofText?_chars]
  rfl

end Constant

/-! ## Guids -/

theorem Text.exists_of_mem_hexDigits {width n : Nat} {c : Char} (h : c ∈ hexDigits width n) :
    ∃ m < 16, c = hexDigitLower m := by
  induction width generalizing n with
  | zero => contradiction
  | succ width ih =>
    rcases List.mem_append.mp h with h | h
    · exact ih h
    · exact ⟨n % 16, Nat.mod_lt n (by decide), List.mem_singleton.mp h⟩

theorem Text.plain_hexDigitLower {m : Nat} (h : m < 16) :
    isBlank (hexDigitLower m) = false ∧ hexDigitLower m ≠ '\x27' ∧
      (hexDigitLower m).toNat < 128 := by
  decide +revert

namespace Guid

open Text

theorem eq_or_mem_of_mem_intercalate {separator c : Char} {parts : List (List Char)}
    (h : c ∈ [separator].intercalate parts) : c = separator ∨ c ∈ parts.flatten := by
  induction parts with
  | nil => contradiction
  | cons part parts ih =>
    cases parts with
    | nil =>
      rw [List.intercalate_singleton] at h
      exact .inr (by simpa using h)
    | cons next parts =>
      rw [List.intercalate_cons_cons, List.append_assoc, List.mem_append, List.mem_append] at h
      rw [List.flatten_cons, List.mem_append]
      rcases h with h | h | h
      · exact .inr (.inl h)
      · exact .inl (List.mem_singleton.mp h)
      · exact (ih h).imp_right .inr

/-- The text of a guid has no blank and no quote, and it is in ASCII. -/
theorem plain_of_mem_text {g : Guid} {c : Char} (h : c ∈ g.text.toList) :
    isBlank c = false ∧ c ≠ '\x27' ∧ c.toNat < 128 := by
  have hlength : (hexDigits 32 g.bits.toNat).length = 32 := length_hexDigits 32 _
  rw [text, String.toList_ofList] at h
  rcases eq_or_mem_of_mem_intercalate h with rfl | h
  · decide
  · rw [flatten_cut (Nat.le_of_eq hlength)] at h
    obtain ⟨m, hm, rfl⟩ := exists_of_mem_hexDigits h
    exact plain_hexDigitLower hm

end Guid

end SqlTree
