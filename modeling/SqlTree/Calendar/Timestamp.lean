import SqlTree.Number.Range
import SqlTree.Text.Digits

/-!
# Dates and timestamps

Days of the proleptic Gregorian calendar and times of day to the nanosecond, without a time zone.
A time of day may fall into a leap second, which is held as the second in front of it with a
fraction of a whole second or more. Any second may have a leap second behind it, not only the last
one of a minute.

* `Date.make?`, `TimeOfDay.make?`: exactly the days and times that exist;
* `TimeOfDay.ofClock?`: the time that a clock shows, which has second 60 for a leap second;
* `Timestamp.text`: date, a separator, and the time with 0, 3, 6 or 9 digits of its second.
-/

namespace SqlTree.Calendar

/-! ## Days -/

/-- Every fourth year, except every hundredth that is no four-hundredth. -/
def isLeapYear (year : Int) : Bool := year % 4 == 0 && (year % 100 != 0 || year % 400 == 0)

/-- The number of days of a month. -/
def daysInMonth (year : Int) (month : Nat) : Nat :=
  if month = 2 then if isLeapYear year then 29 else 28
  else if month = 4 ∨ month = 6 ∨ month = 9 ∨ month = 11 then 30
  else 31

/-- The first year that has dates. -/
def firstYear : Int := -262143

/-- The last year that has dates. -/
def lastYear : Int := 262142

/-- Year, month and day that name a day of the calendar. -/
def IsDay (year : Int) (month day : Nat) : Prop :=
  (firstYear ≤ year ∧ year ≤ lastYear) ∧ (1 ≤ month ∧ month ≤ 12) ∧
    1 ≤ day ∧ day ≤ daysInMonth year month

instance (year : Int) (month day : Nat) : Decidable (IsDay year month day) := by
  unfold IsDay; infer_instance

/-- A day of the calendar. -/
structure Date where
  year : Int
  month : Nat
  day : Nat
  isDay : IsDay year month day
deriving DecidableEq

/-- The day of a year, a month and a number, if there is one. -/
def Date.make? (year : Int) (month day : Nat) : Option Date :=
  if h : IsDay year month day then some ⟨year, month, day, h⟩ else none

/-! ## Times of day -/

/-- Hour, minute, second and nanosecond that name a time of day. The nanoseconds of a leap second go
on behind those of the second in front of it. -/
def IsTime (hour minute second nano : Nat) : Prop :=
  hour < 24 ∧ minute < 60 ∧ second < 60 ∧ nano < 2 * 10 ^ 9

instance (hour minute second nano : Nat) : Decidable (IsTime hour minute second nano) := by
  unfold IsTime; infer_instance

/-- A time of day. -/
structure TimeOfDay where
  hour : Nat
  minute : Nat
  second : Nat
  nano : Nat
  isTime : IsTime hour minute second nano
deriving DecidableEq

namespace TimeOfDay

/-- The time of an hour, a minute, a second and a nanosecond, if there is one. -/
def make? (hour minute second nano : Nat) : Option TimeOfDay :=
  if h : IsTime hour minute second nano then some ⟨hour, minute, second, nano, h⟩ else none

/-- The time that a clock shows as an hour, a minute, a second and a nanosecond, if there is one. It
shows the leap second at the end of a minute as second 60. -/
def ofClock? (hour minute second nano : Nat) : Option TimeOfDay :=
  if second = 60 then make? hour minute 59 (10 ^ 9 + nano) else make? hour minute second nano

/-- The first moment of a day. -/
def midnight : TimeOfDay := ⟨0, 0, 0, 0, by decide⟩

end TimeOfDay

/-- A moment: a day and a time of it. -/
structure Timestamp where
  date : Date
  time : TimeOfDay
deriving DecidableEq

namespace Timestamp

/-- The first moment of a day. -/
def startOf (date : Date) : Timestamp := ⟨date, .midnight⟩

/-- Whether the time of day is midnight, in every component. -/
def isMidnight (t : Timestamp) : Bool := t.time == TimeOfDay.midnight

@[simp] theorem isMidnight_startOf (date : Date) : (startOf date).isMidnight = true := rfl

theorem eq_startOf_of_isMidnight {t : Timestamp} (h : t.isMidnight = true) :
    t = startOf t.date := by
  cases t
  simp only [isMidnight, beq_iff_eq] at h
  simp [startOf, h]

end Timestamp

/-! ## Text -/

/-- The year in at least four digits, with a sign if it is negative or has more digits. -/
def yearText (year : Int) : List Char :=
  let ds := Text.paddedDigits 4 year.natAbs
  if year < 0 then '-' :: ds else if 9999 < year then '+' :: ds else ds

/-- Year, month and day with hyphens between them. -/
def Date.chars (d : Date) : List Char :=
  yearText d.year ++ '-' :: Text.paddedDigits 2 d.month ++ '-' :: Text.paddedDigits 2 d.day

/-- A point and the digits of a nanosecond in groups of three, as few groups as are needed. -/
def fractionText (nano : Nat) : List Char :=
  if nano = 0 then []
  else if nano % 10 ^ 6 = 0 then '.' :: Text.paddedDigits 3 (nano / 10 ^ 6)
  else if nano % 10 ^ 3 = 0 then '.' :: Text.paddedDigits 6 (nano / 10 ^ 3)
  else '.' :: Text.paddedDigits 9 nano

/-- Hour, minute and second with colons between them, and the fraction of the second. A leap second
has the next number. -/
def TimeOfDay.chars (t : TimeOfDay) : List Char :=
  Text.paddedDigits 2 t.hour ++ ':' :: Text.paddedDigits 2 t.minute ++
    ':' :: Text.paddedDigits 2 (t.second + t.nano / 10 ^ 9) ++ fractionText (t.nano % 10 ^ 9)

/-- The text of a date. -/
def Date.text (d : Date) : String := String.ofList d.chars

/-- The text of a moment, with `separator` between date and time. -/
def Timestamp.text (separator : Char) (t : Timestamp) : String :=
  String.ofList (t.date.chars ++ separator :: t.time.chars)

end SqlTree.Calendar
