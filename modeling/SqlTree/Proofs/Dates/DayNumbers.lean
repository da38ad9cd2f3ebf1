import Mathlib.Algebra.GroupWithZero.Nat
import SqlTree.Calendar.Timestamp

/-!
# Days as numbers

The days of the proleptic Gregorian calendar, numbered from the first day of the year 0, and the
year, month and day of a number. 1970-01-01 has the number 719528, and the Sundays are the days
whose numbers leave 1 when divided by 7.

* `Calendar.dayNumber`: the number of a day;
* `Calendar.civil`: the year, month and day of a number.

Results:
* `Calendar.civil_dayNumber`: the day of a day's number is the day;
* `Calendar.dayNumber_civil`: the number of a number's day is the number, and the day exists;
* `Calendar.civil_succ`: the next number belongs to the next day.
-/

namespace SqlTree.Calendar

/-! ## Years -/

/-- The days from the first day of the year 0 to the first day of a year: 365 for each year, and one
for each leap year. -/
def daysBeforeYear (year : Int) : Int :=
  365 * year + (year + 3) / 4 - (year + 99) / 100 + (year + 399) / 400

theorem daysBeforeYear_succ (year : Int) :
    daysBeforeYear (year + 1) = daysBeforeYear year + if isLeapYear year then 366 else 365 := by
  unfold daysBeforeYear isLeapYear
  by_cases h4 : year % 4 = 0
  · by_cases h100 : year % 100 = 0
    · by_cases h400 : year % 400 = 0 <;> simp [h4, h100, h400] <;> omega
    · simp [h4, h100]
      omega
  · simp [h4]
    omega

/-- 400 years have 146097 days; a year begins less than two days from where years of equal length
would. -/
theorem daysBeforeYear_bounds (year : Int) :
    146097 * year - 396 ≤ 400 * daysBeforeYear year ∧
      400 * daysBeforeYear year ≤ 146097 * year + 699 := by
  unfold daysBeforeYear
  omega

/-- The year that a day lies in: the year it would lie in if all years had equal length, or one
next to it. -/
def yearOf (day : Int) : Int :=
  let guess := 400 * day / 146097
  if day < daysBeforeYear guess then guess - 1
  else if daysBeforeYear (guess + 1) ≤ day then guess + 1
  else guess

theorem daysBeforeYear_yearOf (day : Int) :
    daysBeforeYear (yearOf day) ≤ day ∧ day < daysBeforeYear (yearOf day + 1) := by
  unfold yearOf
  dsimp only
  have hguess : 146097 * (400 * day / 146097) ≤ 400 * day ∧
      400 * day < 146097 * (400 * day / 146097) + 146097 := by omega
  generalize 400 * day / 146097 = guess at hguess
  -- a correction by one is enough, as years begin close to their places
  split
  case isTrue hlt =>
    have hprev := daysBeforeYear_bounds (guess - 1)
    rw [Int.sub_add_cancel]
    omega
  case isFalse =>
    split
    case isTrue =>
      have hnext := daysBeforeYear_bounds (guess + 1 + 1)
      omega
    case isFalse => omega

theorem daysBeforeYear_succ_le {year next : Int} (h : year < next) :
    daysBeforeYear (year + 1) ≤ daysBeforeYear next := by
  obtain rfl | hlt : year + 1 = next ∨ year + 1 < next := by omega
  · exact Int.le_refl _
  · have := daysBeforeYear_bounds (year + 1)
    have := daysBeforeYear_bounds next
    omega

/-- A day lies in the year that begins before it and is followed by a year that begins after it. -/
theorem yearOf_eq {year day : Int} (hle : daysBeforeYear year ≤ day)
    (hlt : day < daysBeforeYear (year + 1)) : yearOf day = year := by
  have hown := daysBeforeYear_yearOf day
  -- two years that differ do not share a day: the earlier one ends before the later one begins
  rcases Int.lt_trichotomy (yearOf day) year with h | h | h
  · have := daysBeforeYear_succ_le h
    omega
  · exact h
  · have := daysBeforeYear_succ_le h
    omega

theorem le_yearOf {year day : Int} (h : daysBeforeYear year ≤ day) : year ≤ yearOf day := by
  have hown := (daysBeforeYear_yearOf day).2
  refine Int.not_lt.mp fun hlt => ?_
  have := daysBeforeYear_succ_le hlt
  omega

/-! ## Months -/

/-- The lengths of the months of a year. -/
def monthLengths (year : Int) : List Nat := (List.range' 1 12).map (daysInMonth year)

@[simp] theorem length_monthLengths (year : Int) : (monthLengths year).length = 12 := by
  simp [monthLengths]

theorem getElem_monthLengths (year : Int) {i : Nat} (h : i < (monthLengths year).length) :
    (monthLengths year)[i] = daysInMonth year (i + 1) := by
  simp [monthLengths, Nat.add_comm]

theorem sum_monthLengths (year : Int) :
    (monthLengths year).sum = if isLeapYear year then 366 else 365 := by
  cases h : isLeapYear year <;> simp [monthLengths, List.range', daysInMonth, h]

/-- A year has the days of its months. -/
theorem daysBeforeYear_succ_eq_add_sum (year : Int) :
    daysBeforeYear (year + 1) = daysBeforeYear year + (monthLengths year).sum := by
  rw [daysBeforeYear_succ, sum_monthLengths]
  split <;> rfl

/-- The days up to the end of a month are those up to the end of the month before and its own. -/
theorem sum_take_monthLengths {year : Int} {month : Nat} (h : 1 ≤ month ∧ month ≤ 12) :
    ((monthLengths year).take month).sum =
      ((monthLengths year).take (month - 1)).sum + daysInMonth year month := by
  have hi : month - 1 < (monthLengths year).length := by
    rw [length_monthLengths]
    omega
  have htake := List.take_succ_eq_append_getElem hi
  rw [getElem_monthLengths, Nat.sub_add_cancel h.1] at htake
  rw [htake, List.sum_append, List.sum_singleton]

theorem sum_take_monthLengths_le (year : Int) (month : Nat) :
    ((monthLengths year).take month).sum ≤ (monthLengths year).sum := by
  have hsplit := congrArg List.sum (List.take_append_drop month (monthLengths year))
  rw [List.sum_append] at hsplit
  omega

theorem daysInMonth_pos (year : Int) (month : Nat) : 1 ≤ daysInMonth year month := by
  unfold daysInMonth
  split
  · split <;> omega
  · split <;> omega

/-- The place of a day in consecutive spans of days: the index of its span, and its place there. -/
def splitDays : List Nat → Nat → Nat × Nat
  | [], day => (0, day)
  | length :: lengths, day =>
    if day < length then (0, day)
    else ((splitDays lengths (day - length)).1 + 1, (splitDays lengths (day - length)).2)

theorem splitDays_sum_add {lengths : List Nat} {i day : Nat} (hi : i < lengths.length)
    (hday : day < lengths[i]) : splitDays lengths ((lengths.take i).sum + day) = (i, day) := by
  induction lengths generalizing i with
  | nil => simp at hi
  | cons length lengths ih =>
    cases i with
    | zero =>
      simp only [List.getElem_cons_zero] at hday
      simp [splitDays, hday]
    | succ i =>
      have hrest := ih (by simpa using hi) (by simpa using hday)
      have hsub : length + (lengths.take i).sum + day - length = (lengths.take i).sum + day := by
        omega
      simp only [List.take_succ_cons, List.sum_cons, splitDays, hsub, hrest]
      rw [if_neg (by omega)]

theorem exists_splitDays {lengths : List Nat} {day : Nat} (h : day < lengths.sum) :
    ∃ (i : Nat) (hi : i < lengths.length) (rest : Nat),
      rest < lengths[i] ∧ day = (lengths.take i).sum + rest := by
  induction lengths generalizing day with
  | nil => simp at h
  | cons length lengths ih =>
    by_cases hday : day < length
    · exact ⟨0, by simp, day, by simpa using hday, by simp⟩
    · have hless : day - length < lengths.sum := by
        rw [List.sum_cons] at h
        omega
      obtain ⟨i, hi, rest, hrest, heq⟩ := ih hless
      refine ⟨i + 1, by simpa using hi, rest, by simpa using hrest, ?_⟩
      simp only [List.take_succ_cons, List.sum_cons]
      omega

/-! ## Days -/

/-- The number of a day, counted from the first day of the year 0. -/
def dayNumber (year : Int) (month day : Nat) : Int :=
  daysBeforeYear year + ((monthLengths year).take (month - 1)).sum + day - 1

/-- A year, a month and a day. -/
structure Civil where
  year : Int
  month : Nat
  day : Nat
deriving DecidableEq

/-- The year, month and day of a day's number. -/
def civil (number : Int) : Civil :=
  let year := yearOf number
  let place := splitDays (monthLengths year) (number - daysBeforeYear year).toNat
  ⟨year, place.1 + 1, place.2 + 1⟩

/-- The day of a day's number is the day. -/
theorem civil_dayNumber {year : Int} {month day : Nat} (hmonth : 1 ≤ month ∧ month ≤ 12)
    (hday : 1 ≤ day ∧ day ≤ daysInMonth year month) :
    civil (dayNumber year month day) = ⟨year, month, day⟩ := by
  have hi : month - 1 < (monthLengths year).length := by
    rw [length_monthLengths]
    omega
  have hlength : (monthLengths year)[month - 1] = daysInMonth year month := by
    rw [getElem_monthLengths, Nat.sub_add_cancel hmonth.1]
  have hless : day - 1 < (monthLengths year)[month - 1] := by omega
  have hplace := splitDays_sum_add hi hless
  have hsum := sum_take_monthLengths_le year month
  rw [sum_take_monthLengths hmonth] at hsum
  have hyear : yearOf (dayNumber year month day) = year := by
    apply yearOf_eq
    · unfold dayNumber
      omega
    · have hnext := daysBeforeYear_succ_eq_add_sum year
      unfold dayNumber
      omega
  have hrest : (dayNumber year month day - daysBeforeYear year).toNat =
      ((monthLengths year).take (month - 1)).sum + (day - 1) := by
    unfold dayNumber
    omega
  simp only [civil, hyear, hrest, hplace, Civil.mk.injEq, true_and]
  omega

/-- The number of a number's day is the number, and the day exists. -/
theorem dayNumber_civil (number : Int) :
    dayNumber (civil number).year (civil number).month (civil number).day = number ∧
      (1 ≤ (civil number).month ∧ (civil number).month ≤ 12) ∧
      1 ≤ (civil number).day ∧
      (civil number).day ≤ daysInMonth (civil number).year (civil number).month := by
  obtain ⟨hle, hlt⟩ := daysBeforeYear_yearOf number
  have hinside : (number - daysBeforeYear (yearOf number)).toNat <
      (monthLengths (yearOf number)).sum := by
    have hnext := daysBeforeYear_succ_eq_add_sum (yearOf number)
    omega
  obtain ⟨i, hi, rest, hrest, heq⟩ := exists_splitDays hinside
  have hcivil : civil number = ⟨yearOf number, i + 1, rest + 1⟩ := by
    simp only [civil, heq, splitDays_sum_add hi hrest]
  rw [getElem_monthLengths] at hrest
  rw [length_monthLengths] at hi
  simp only [hcivil, dayNumber, Nat.add_sub_cancel]
  omega

/-- The next number belongs to the next day: of the same month, of the next month, or of the next
year. -/
theorem civil_succ (number : Int) :
    civil (number + 1) =
      if (civil number).day < daysInMonth (civil number).year (civil number).month then
        { civil number with day := (civil number).day + 1 }
      else if (civil number).month < 12 then
        ⟨(civil number).year, (civil number).month + 1, 1⟩
      else ⟨(civil number).year + 1, 1, 1⟩ := by
  obtain ⟨hnumber, hmonth, hday⟩ := dayNumber_civil number
  generalize civil number = c at *
  obtain ⟨year, month, day⟩ := c
  dsimp only at *
  split
  case isTrue hlt =>
    have hnext : number + 1 = dayNumber year month (day + 1) := by
      unfold dayNumber at *
      omega
    rw [hnext, civil_dayNumber hmonth (by omega)]
  case isFalse hlast =>
    have hsum := @sum_take_monthLengths year month hmonth
    split
    case isTrue hlt =>
      have hnext : number + 1 = dayNumber year (month + 1) 1 := by
        unfold dayNumber at *
        rw [Nat.add_sub_cancel]
        omega
      rw [hnext, civil_dayNumber (by omega) ⟨Nat.le_refl 1, daysInMonth_pos _ _⟩]
    case isFalse hdecember =>
      have hnext : number + 1 = dayNumber (year + 1) 1 1 := by
        have hyear := daysBeforeYear_succ_eq_add_sum year
        have hall : (monthLengths year).take month = monthLengths year :=
          List.take_of_length_le (by rw [length_monthLengths]; omega)
        rw [hall] at hsum
        unfold dayNumber at *
        rw [Nat.sub_self, List.take_zero, List.sum_nil]
        omega
      rw [hnext, civil_dayNumber (by decide) ⟨Nat.le_refl 1, daysInMonth_pos _ _⟩]

/-- The number of a day of the calendar. -/
def Date.dayNumber (d : Date) : Int := Calendar.dayNumber d.year d.month d.day

@[simp] theorem civil_dayNumber_date (d : Date) : civil d.dayNumber = ⟨d.year, d.month, d.day⟩ :=
  civil_dayNumber d.isDay.2.1 d.isDay.2.2

end SqlTree.Calendar
