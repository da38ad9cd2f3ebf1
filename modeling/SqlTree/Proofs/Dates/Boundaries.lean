import SqlTree.Proofs.Dates.DayNumbers
import SqlTree.Syntax.Words

/-!
# Boundaries of units

The units of time number the moments: two moments have numbers that differ by the boundaries of the
unit between them. Weeks begin on Sunday, and a day of the year is a day.

* `DateUnit.index`: the number of the unit that a timestamp lies in, from its fields;
* `Calendar.Timestamp.microseconds`: a timestamp as a count of microseconds;
* `DateUnit.boundary`: the number of the unit that a count of microseconds lies in.

Results:
* `DateUnit.boundary_microseconds`: both numbers agree on timestamps that are exact to the
  microsecond and in no leap second;
* `DateUnit.boundary_succ`: from one microsecond to the next, a number grows by one at most.
-/

namespace SqlTree

namespace Calendar

/-- The number of a month, counted from the first month of the year 0. -/
def monthNumber (year : Int) (month : Nat) : Int := 12 * year + (month - 1 : Nat)

/-- The number of the quarter of a month, counted from the first quarter of the year 0. -/
def quarterNumber (year : Int) (month : Nat) : Int := 4 * year + ((month - 1) / 3 : Nat)

/-- The number of the week of a day. The first Sunday has the number 1. -/
def weekNumber (day : Int) : Int := (day - 1) / 7

/-- The microseconds of a day. -/
def microsPerDay : Int := 86400000000

namespace Timestamp

/-- The number of the second of a timestamp, counted from the first moment of the year 0. -/
def seconds (t : Timestamp) : Int :=
  86400 * t.date.dayNumber + (3600 * t.time.hour + 60 * t.time.minute + t.time.second : Nat)

/-- The microseconds from the first moment of the year 0 to a timestamp. -/
def microseconds (t : Timestamp) : Int := 1000000 * t.seconds + (t.time.nano / 1000 : Nat)

end Timestamp

/-- The number of the day of a count of microseconds. -/
def dayOf (micros : Int) : Int := micros / microsPerDay

/-- The year, month and day of a count of microseconds. -/
def civilOf (micros : Int) : Civil := civil (dayOf micros)

end Calendar

open Calendar

namespace DateUnit

/-- The number of the unit that a timestamp lies in. -/
def index (unit : DateUnit) (t : Timestamp) : Int :=
  match unit with
  | year => t.date.year
  | quarter => quarterNumber t.date.year t.date.month
  | month => monthNumber t.date.year t.date.month
  | dayOfYear | day => t.date.dayNumber
  | week => weekNumber t.date.dayNumber
  | hour => 24 * t.date.dayNumber + t.time.hour
  | minute => 60 * (24 * t.date.dayNumber + t.time.hour) + t.time.minute
  | second => t.seconds
  | millisecond => 1000 * t.seconds + (t.time.nano / 1000000 : Nat)
  | microsecond => 1000000 * t.seconds + (t.time.nano / 1000 : Nat)
  | nanosecond => 1000000000 * t.seconds + t.time.nano

/-- The number of the unit that a count of microseconds lies in. -/
def boundary (unit : DateUnit) (micros : Int) : Int :=
  match unit with
  | year => (civilOf micros).year
  | quarter => quarterNumber (civilOf micros).year (civilOf micros).month
  | month => monthNumber (civilOf micros).year (civilOf micros).month
  | dayOfYear | day => dayOf micros
  | week => weekNumber (dayOf micros)
  | hour => micros / 3600000000
  | minute => micros / 60000000
  | second => micros / 1000000
  | millisecond => micros / 1000
  | microsecond => micros
  | nanosecond => 1000 * micros

end DateUnit

section

variable {t : Timestamp}

theorem Calendar.dayOf_microseconds (hleap : t.time.nano < 10 ^ 9) :
    dayOf t.microseconds = t.date.dayNumber := by
  obtain ⟨hhour, hminute, hsecond, -⟩ := t.time.isTime
  unfold dayOf microsPerDay Timestamp.microseconds Timestamp.seconds
  omega

theorem Calendar.month_civilOf (micros : Int) :
    1 ≤ (civilOf micros).month ∧ (civilOf micros).month ≤ 12 :=
  (dayNumber_civil (dayOf micros)).2.1

theorem Calendar.civilOf_microseconds (hleap : t.time.nano < 10 ^ 9) :
    civilOf t.microseconds = ⟨t.date.year, t.date.month, t.date.day⟩ := by
  rw [civilOf, dayOf_microseconds hleap, civil_dayNumber_date]

/-- The number of a unit by the fields of a timestamp is its number by the count of
microseconds. -/
theorem DateUnit.boundary_microseconds (unit : DateUnit) (hleap : t.time.nano < 10 ^ 9)
    (hmicro : 1000 ∣ t.time.nano) : unit.boundary t.microseconds = unit.index t := by
  obtain ⟨hhour, hminute, hsecond, -⟩ := t.time.isTime
  cases unit with
  | year | quarter | month => simp only [boundary, index, civilOf_microseconds hleap]
  | dayOfYear | day | week => simp only [boundary, index, dayOf_microseconds hleap]
  | microsecond => rfl
  | hour | minute | second | millisecond | nanosecond =>
    simp only [boundary, index, Timestamp.microseconds, Timestamp.seconds]
    omega

end

/-! ## Steps -/

theorem Calendar.dayOf_succ (micros : Int) :
    dayOf (micros + 1) = dayOf micros ∨ dayOf (micros + 1) = dayOf micros + 1 := by
  unfold dayOf microsPerDay
  omega

/-- No unit but the nanosecond has more than one boundary in a microsecond. -/
theorem DateUnit.boundary_succ {unit : DateUnit} (hunit : unit ≠ .nanosecond) (micros : Int) :
    unit.boundary (micros + 1) = unit.boundary micros ∨
      unit.boundary (micros + 1) = unit.boundary micros + 1 := by
  cases unit with
  | year | quarter | month =>
    have hmonth := month_civilOf micros
    simp only [boundary, quarterNumber, monthNumber, civilOf] at *
    rcases dayOf_succ micros with hday | hday
    · exact .inl (by rw [hday])
    · rw [hday, civil_succ]
      split
      · exact .inl rfl
      · split <;> dsimp only <;> omega
  | dayOfYear | day => exact dayOf_succ micros
  | week =>
    have := dayOf_succ micros
    simp only [boundary, weekNumber]
    omega
  | microsecond => exact .inr rfl
  | hour | minute | second | millisecond =>
    simp only [boundary]
    omega
  | nanosecond => exact absurd rfl hunit

end SqlTree
