import SqlTree.Calendar.Reader
import SqlTree.Proofs.Text.Digits

/-!
# Reading timestamps

The text of a moment is read again as the moment, in the format in which moments are stored. Years
of more than four digits and years before the first one are written with a sign, and read with it. A
leap second that ends a minute is written as second 60. One that does not is written like the second
behind it, and cannot be told from that.

* `Calendar.TimeOfDay.HasOwnText`: times of day with a text that no other one has.
* `Calendar.TimeOfDay.asRead`: a time of day as it is read from its text.

Results:
* `Calendar.yearField?_yearText`, `Calendar.fraction?_fractionText`: years and fractions are read
  again.
* `Calendar.TimeOfDay.chars_asRead`: a time of day and what it is read as have one text.
* `Calendar.TimeOfDay.asRead_eq_self_iff`: only times of day with texts of their own are read again.
* `Calendar.Timestamp.ofText?_text`: moments are read again in the same way.
-/

namespace SqlTree.Calendar

open Text

/-! ## Fields -/

theorem field?_paddedDigits {width n : Nat} (hwidth : 0 < width) (h : n < 10 ^ width)
    (rest : List Char) : field? width (paddedDigits width n ++ rest) = some (n, rest) := by
  have hdigits : ∀ c ∈ paddedDigits width n, c.isDigit = true :=
    fun _ => isDigit_of_mem_paddedDigits
  have hlength := length_paddedDigits hwidth h
  rw [field?, trimLeft_of_isDigit (paddedDigits_ne_nil width n) hdigits,
    spanDigits_of_isDigit hdigits (Nat.le_of_eq hlength) (.inl hlength)]
  simp only [number?_paddedDigits, Option.map_some]

theorem separator?_cons (loose : Bool) {c : Char} (hc : isBlank c = false) (rest : List Char) :
    separator? loose c (c :: rest) = some rest := by
  cases loose <;> simp [separator?, trimLeft_of_not_blank hc]

theorem spanDigits_paddedDigits (width n : Nat) (rest : List Char)
    (hrest : ∀ c ∈ rest.head?, c.isDigit = false) :
    spanDigits (paddedDigits width n ++ rest).length (paddedDigits width n ++ rest) =
      (paddedDigits width n, rest) := by
  refine spanDigits_of_isDigit (fun _ => isDigit_of_mem_paddedDigits) ?_ (.inr hrest)
  rw [List.length_append]
  exact Nat.le_add_right _ _

/-- A year is read again in front of a text that does not continue its digits. -/
theorem yearField?_yearText (year : Int) {c : Char} (hc : c.isDigit = false) (rest : List Char) :
    yearField? (yearText year ++ c :: rest) = some (year, c :: rest) := by
  have hspan := spanDigits_paddedDigits 4 year.natAbs (c :: rest) (by simpa using hc)
  unfold yearText
  split
  · rename_i hnegative
    have hyear : -1 * (year.natAbs : Int) = year := by omega
    rw [List.cons_append, yearField?, trimLeft_of_not_blank (by decide)]
    simp only [hspan, number?_paddedDigits]
    show some (-1 * (year.natAbs : Int), c :: rest) = some (year, c :: rest)
    rw [hyear]
  · split
    · have hyear : 1 * (year.natAbs : Int) = year := by omega
      rw [List.cons_append, yearField?, trimLeft_of_not_blank (by decide)]
      simp only [hspan, number?_paddedDigits]
      show some (1 * (year.natAbs : Int), c :: rest) = some (year, c :: rest)
      rw [hyear]
    · have hdigits : ∀ d ∈ paddedDigits 4 year.natAbs, d.isDigit = true :=
        fun _ => isDigit_of_mem_paddedDigits
      have hne := paddedDigits_ne_nil 4 year.natAbs
      have hyear : (year.natAbs : Int) = year := by omega
      have hfield : field? 4 (paddedDigits 4 year.natAbs ++ c :: rest) =
          some (year.natAbs, c :: rest) := field?_paddedDigits (by decide) (by omega) _
      obtain ⟨d, ds, hds⟩ := List.exists_cons_of_ne_nil hne
      have hd : d.isDigit = true := hdigits d (by simp [hds])
      rw [yearField?, trimLeft_of_isDigit hne hdigits]
      split
      · rename_i heq
        rw [hds] at heq
        obtain rfl := (List.cons_eq_cons.mp heq).1
        exact absurd hd (by decide)
      · rename_i heq
        rw [hds] at heq
        obtain rfl := (List.cons_eq_cons.mp heq).1
        exact absurd hd (by decide)
      · rw [hfield]
        show some ((year.natAbs : Int), c :: rest) = some (year, c :: rest)
        rw [hyear]

theorem fraction?_point {width n : Nat} (hwidth : 0 < width) (hle : width ≤ 9)
    (h : n < 10 ^ width) :
    fraction? ('.' :: paddedDigits width n) = some (n * 10 ^ (9 - width), []) := by
  have hlength := length_paddedDigits hwidth h
  have hspan := spanDigits_paddedDigits width n [] (by simp)
  rw [List.append_nil] at hspan
  have hnano : nanoseconds? (paddedDigits width n) = some (n * 10 ^ (9 - width)) := by
    rw [nanoseconds?, List.take_of_length_le (by omega)]
    simp only [number?_paddedDigits, hlength, Option.map_some]
  simp only [fraction?, hspan, hnano, Option.map_some]

/-- A fraction of a second is read again at the end of a text. -/
theorem fraction?_fractionText {nano : Nat} (h : nano < 10 ^ 9) :
    fraction? (fractionText nano) = some (nano, []) := by
  unfold fractionText
  split
  · rename_i hzero
    rw [hzero]
    rfl
  · split
    · rw [fraction?_point (by decide) (by decide) (by omega)]
      simp
      omega
    · split
      · rw [fraction?_point (by decide) (by decide) (by omega)]
        simp
        omega
      · rw [fraction?_point (by decide) (by decide) h]
        simp

/-! ## Dates and times -/

theorem two_digits {n : Nat} (h : n < 100) (rest : List Char) :
    field? 2 (paddedDigits 2 n ++ rest) = some (n, rest) :=
  field?_paddedDigits (by decide) h rest

theorem day_lt_of_isDay {year : Int} {month day : Nat} (h : IsDay year month day) : day < 100 := by
  have hday : daysInMonth year month ≤ 31 := by
    unfold daysInMonth
    repeat' split
    all_goals omega
  have := h.2.2.2
  omega

/-- A date is read again. -/
theorem dateField?_chars (loose : Bool) (d : Date) (rest : List Char) :
    dateField? loose (d.chars ++ rest) = some (d, rest) := by
  obtain ⟨year, month, day, hday⟩ := d
  have hmonth : month < 100 := by
    have := hday.2.1.2
    omega
  have hmake : Date.make? year month day = some ⟨year, month, day, hday⟩ := dif_pos hday
  have hhyphen : isBlank '-' = false := by decide
  simp only [dateField?, Date.chars, List.append_assoc, List.cons_append]
  rw [yearField?_yearText year (by decide)]
  simp only [Option.bind_eq_bind, Option.bind_some, separator?_cons loose hhyphen,
    two_digits hmonth, two_digits (day_lt_of_isDay hday), hmake]
  rfl

namespace TimeOfDay

/-- A time of day has a text of its own if it is in no leap second, or in one that ends a minute. -/
def HasOwnText (t : TimeOfDay) : Prop := t.nano < 10 ^ 9 ∨ t.second = 59

instance (t : TimeOfDay) : Decidable t.HasOwnText := by
  unfold HasOwnText; infer_instance

theorem isTime_next {t : TimeOfDay} (h : ¬t.HasOwnText) :
    IsTime t.hour t.minute (t.second + 1) (t.nano - 10 ^ 9) := by
  obtain ⟨hhour, hminute, hsecond, hnano⟩ := t.isTime
  unfold HasOwnText at h
  unfold IsTime
  omega

/-- A time of day as it is read from its text: in place of a leap second inside a minute, the second
behind it with the same fraction. -/
def asRead (t : TimeOfDay) : TimeOfDay :=
  if h : t.HasOwnText then t
  else ⟨t.hour, t.minute, t.second + 1, t.nano - 10 ^ 9, isTime_next h⟩

variable {t : TimeOfDay}

theorem asRead_of_hasOwnText (h : t.HasOwnText) : t.asRead = t := dif_pos h

theorem hasOwnText_asRead (t : TimeOfDay) : t.asRead.HasOwnText := by
  unfold asRead
  split
  · assumption
  · have := t.isTime.2.2.2
    exact .inl (by dsimp only; omega)

/-- A time of day and what it is read as have one text. -/
theorem chars_asRead (t : TimeOfDay) : t.asRead.chars = t.chars := by
  unfold asRead
  split
  · rfl
  · rename_i h
    have hnano := t.isTime.2.2.2
    unfold HasOwnText at h
    have hsecond : t.second + 1 + (t.nano - 10 ^ 9) / 10 ^ 9 = t.second + t.nano / 10 ^ 9 := by
      omega
    have hfraction : (t.nano - 10 ^ 9) % 10 ^ 9 = t.nano % 10 ^ 9 := by omega
    simp only [chars, hsecond, hfraction]

theorem asRead_eq_self_iff : t.asRead = t ↔ t.HasOwnText :=
  ⟨fun h => h ▸ t.hasOwnText_asRead, asRead_of_hasOwnText⟩

/-- A clock shows a time of day as its text does. -/
theorem ofClock?_of_hasOwnText (h : t.HasOwnText) :
    ofClock? t.hour t.minute (t.second + t.nano / 10 ^ 9) (t.nano % 10 ^ 9) = some t := by
  have hmake : make? t.hour t.minute t.second t.nano = some t := dif_pos t.isTime
  obtain ⟨hhour, hminute, hsecond, hnano⟩ := t.isTime
  unfold ofClock?
  rcases Nat.lt_or_ge t.nano (10 ^ 9) with hplain | hleap
  · rw [Nat.div_eq_of_lt hplain, Nat.mod_eq_of_lt hplain, Nat.add_zero, if_neg (by omega), hmake]
  · have hlast : t.second = 59 := h.resolve_left (by omega)
    have hfraction : 10 ^ 9 + t.nano % 10 ^ 9 = t.nano := by omega
    rw [if_pos (by omega), hfraction, ← hlast, hmake]

end TimeOfDay

/-- A time of day is read again, as far as its text tells it. -/
theorem timeField?_chars (loose : Bool) (t : TimeOfDay) :
    timeField? loose t.chars = some (t.asRead, []) := by
  have hclock := TimeOfDay.ofClock?_of_hasOwnText t.hasOwnText_asRead
  rw [← t.chars_asRead]
  generalize t.asRead = t at hclock
  obtain ⟨hhour, hminute, hsecond, hnano⟩ := t.isTime
  have hfraction := fraction?_fractionText (Nat.mod_lt t.nano (by decide : 0 < 10 ^ 9))
  have hcolon : isBlank ':' = false := by decide
  simp only [timeField?, TimeOfDay.chars, List.append_assoc, List.cons_append,
    Option.bind_eq_bind, Option.bind_some, separator?_cons loose hcolon,
    two_digits (by omega : t.hour < 100), two_digits (by omega : t.minute < 100),
    two_digits (by omega : t.second + t.nano / 10 ^ 9 < 100), hfraction, hclock]
  rfl

namespace Timestamp

/-- A moment as it is read from its text. -/
def asRead (t : Timestamp) : Timestamp := { t with time := t.time.asRead }

theorem asRead_eq_self_iff {t : Timestamp} : t.asRead = t ↔ t.time.HasOwnText := by
  rw [← TimeOfDay.asRead_eq_self_iff]
  exact ⟨congrArg time, fun h => by rw [asRead, h]⟩

/-- A moment and what it is read as have one text. -/
theorem text_asRead (separator : Char) (t : Timestamp) :
    t.asRead.text separator = t.text separator := by
  rw [text, text, asRead, t.time.chars_asRead]

/-- A leap second is no midnight, and neither is the second behind it. -/
theorem isMidnight_asRead (t : Timestamp) : t.asRead.isMidnight = t.isMidnight := by
  by_cases h : t.time.HasOwnText
  · rw [asRead_eq_self_iff.mpr h]
  · have hleap : ¬t.time.nano < 10 ^ 9 := fun hplain => h (.inl hplain)
    have hnext : t.asRead.time.second = t.time.second + 1 := by
      simp [asRead, TimeOfDay.asRead, h]
    have hread : t.asRead.time ≠ .midnight := fun hmidnight => by
      rw [hmidnight] at hnext
      exact absurd hnext (Nat.succ_ne_zero _).symm
    have hself : t.time ≠ .midnight := fun hmidnight => by
      rw [hmidnight] at hleap
      exact hleap (by decide)
    rw [isMidnight, isMidnight, beq_false_of_ne hread, beq_false_of_ne hself]

end Timestamp

/-- A moment is read again from its stored text. -/
theorem Timestamp.ofText?_text (t : Timestamp) :
    Timestamp.ofText? .stored (t.text 'T').toList = some t.asRead := by
  have hdivide : TimestampFormat.stored.divide? ('T' :: t.time.chars) = some t.time.chars :=
    separator?_cons true (by decide : isBlank 'T' = false) _
  rw [Timestamp.text, String.toList_ofList, Timestamp.ofText?]
  simp only [dateField?_chars, Option.bind_eq_bind, Option.bind_some, hdivide, timeField?_chars]
  rfl

end SqlTree.Calendar
