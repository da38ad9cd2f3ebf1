import SqlTree.Proofs.Dates.Databases

/-!
# Date differences of MySQL

`TIMESTAMPDIFF` counts whole units, not boundaries. From the first moment of the year 1000 to a
later moment both are the same, for every unit that begins with a year.

Results:
* `Dialect.eval_mySqlDifference?`: the formulas count boundaries, from the year 1000 on.
-/

namespace SqlTree

open Calendar

/-! ## Units since the first moment of the year 1000 -/

namespace Calendar

/-- The first moment of the year 1000, the earliest moment of MySQL. -/
def anchorMicros : Int := microsPerDay * dayNumber 1000 1 1

theorem civilOf_anchorMicros : civilOf anchorMicros = ⟨1000, 1, 1⟩ := by
  have hday : dayOf anchorMicros = dayNumber 1000 1 1 := by
    simp [dayOf, anchorMicros, microsPerDay]
  rw [civilOf, hday]
  exact civil_dayNumber (by decide) (by decide)

theorem le_civilOf_year {micros : Int} (h : anchorMicros ≤ micros) :
    1000 ≤ (civilOf micros).year := by
  have hfirst : dayNumber 1000 1 1 = daysBeforeYear 1000 := by decide
  apply le_yearOf
  unfold anchorMicros at h
  unfold dayOf microsPerDay at *
  omega

/-- No time of a month comes before the first one. -/
theorem wholeMonths_anchorMicros {micros : Int} (h : anchorMicros ≤ micros) :
    wholeMonths anchorMicros micros =
      DateUnit.month.boundary micros - DateUnit.month.boundary anchorMicros := by
  have hday : 1 ≤ (civilOf micros).day := (dayNumber_civil (dayOf micros)).2.2.1
  have htime : ¬timeOfMonth micros < timeOfMonth anchorMicros := by
    simp only [timeOfMonth, civilOf_anchorMicros]
    unfold anchorMicros microsPerDay
    omega
  rw [wholeMonths, if_pos h, wholeMonthsUntil, if_neg htime, Int.sub_zero]

end Calendar

namespace Dialect

/-- The units of `TIMESTAMPDIFF` that begin with a year, which weeks do not, and their names. -/
def unitsOfYears : List (String × DateUnit) :=
  [("YEAR", .year), ("QUARTER", .quarter), ("MONTH", .month), ("DAY", .day), ("HOUR", .hour),
    ("MINUTE", .minute), ("SECOND", .second), ("MICROSECOND", .microsecond)]

/-- From the first moment of the year 1000 on, whole units are boundaries. -/
theorem timestampDiff?_anchorMicros {name : String} {unit : DateUnit} {micros : Int}
    (hunit : (name, unit) ∈ unitsOfYears) (h : anchorMicros ≤ micros) :
    timestampDiff? name anchorMicros micros =
      some (unit.boundary micros - unit.boundary anchorMicros) := by
  have hyear := le_civilOf_year h
  have hmonth := month_civilOf micros
  have hnonneg : 0 ≤ micros - anchorMicros := by omega
  have hmonths := wholeMonths_anchorMicros h
  simp only [DateUnit.boundary, civilOf_anchorMicros, monthNumber] at hmonths
  -- no count is negative, so cutting towards zero is rounding down, and the anchor begins a unit
  cases unit with
  | year | quarter =>
    simp [unitsOfYears] at hunit
    rw [hunit, timestampDiff?, Int.tdiv_eq_ediv_of_nonneg (by omega), hmonths]
    simp only [DateUnit.boundary, civilOf_anchorMicros, quarterNumber, Option.some.injEq]
    omega
  | month =>
    simp [unitsOfYears] at hunit
    rw [hunit, timestampDiff?, wholeMonths_anchorMicros h]
  | day | hour | minute | second =>
    simp [unitsOfYears] at hunit
    rw [hunit, timestampDiff?, Int.tdiv_eq_ediv_of_nonneg hnonneg]
    simp only [DateUnit.boundary, dayOf, Option.some.injEq]
    unfold anchorMicros microsPerDay
    omega
  | microsecond =>
    simp [unitsOfYears] at hunit
    rw [hunit]
    rfl
  | week | dayOfYear | millisecond | nanosecond => simp [unitsOfYears] at hunit

/-! ## Measures -/

section

variable {date : Formula} {s f : Datum} {micros : Int}

theorem mySqlMicros?_anchor : mySqlMicros? (.text "1000-01-01") = some anchorMicros := by decide

/-- `TIMESTAMPDIFF` from the first day of the year 1000 numbers the units. -/
theorem eval_unitsSinceAnchor {name : String} {unit : DateUnit}
    (hunit : (name, unit) ∈ unitsOfYears)
    (hdate : date.eval mySqlDatabase s f = some (.timestamp micros)) (h : anchorMicros ≤ micros) :
    (unitsSinceAnchor name date).eval mySqlDatabase s f =
      some (.whole (unit.boundary micros - unit.boundary anchorMicros)) := by
  rw [unitsSinceAnchor, Formula.eval_call_three rfl rfl hdate]
  simp [mySqlCall, mySqlMicros?_anchor, timestampDiff?_anchorMicros hunit h]

/-- A thousand microseconds are a millisecond. -/
theorem eval_millisecondsSinceAnchor
    (hdate : date.eval mySqlDatabase s f = some (.timestamp micros)) (h : anchorMicros ≤ micros) :
    (Formula.operation (unitsSinceAnchor "MICROSECOND" date) .wholeDivide (.integer 1000)).eval
        mySqlDatabase s f =
      some (.whole (DateUnit.millisecond.boundary micros -
        DateUnit.millisecond.boundary anchorMicros)) := by
  have hunit : ("MICROSECOND", DateUnit.microsecond) ∈ unitsOfYears := by simp [unitsOfYears]
  have hmicros := eval_unitsSinceAnchor hunit hdate h
  have hquotient : (micros - anchorMicros).tdiv 1000 = micros / 1000 - anchorMicros / 1000 := by
    rw [Int.tdiv_eq_ediv_of_nonneg (by omega)]
    unfold anchorMicros microsPerDay
    omega
  rw [Formula.eval_operation hmicros rfl]
  simp [mySqlOperate, FormulaOp.onWhole?, DateUnit.boundary, hquotient]

/-- The Saturday before a date is one day before the Sunday that begins its week. -/
theorem eval_weekEnd (hdate : date.eval mySqlDatabase s f = some (.timestamp micros)) :
    (weekEnd date).eval mySqlDatabase s f = some (.whole (7 * weekNumber (dayOf micros))) := by
  have hday : dayOf micros - (1 + daysSinceSunday (dayOf micros)) =
      7 * weekNumber (dayOf micros) := by
    unfold daysSinceSunday weekNumber
    omega
  rw [weekEnd, Formula.eval_operation (Formula.eval_call_one hdate) (Formula.eval_call_one hdate)]
  simp [mySqlOperate, FormulaOp.onWhole?, hday]

end

/-! ## Differences -/

/-- The change of a measure with whole values is the difference of its values. -/
theorem eval_change_mySql {measure : Formula → Formula} {s f : Datum} {m n : Int}
    (hs : (measure .start).eval mySqlDatabase s f = some (.whole m))
    (hf : (measure .finish).eval mySqlDatabase s f = some (.whole n)) :
    (Formula.change measure).eval mySqlDatabase s f = some (.whole (n - m)) := by
  rw [Formula.eval_change hs hf]
  simp [mySqlOperate, FormulaOp.onWhole?]

theorem eval_change_unitsSinceAnchor {name : String} {unit : DateUnit} {a b : Int}
    (hunit : (name, unit) ∈ unitsOfYears) (ha : anchorMicros ≤ a) (hb : anchorMicros ≤ b) :
    (Formula.change (unitsSinceAnchor name)).eval mySqlDatabase (.timestamp a) (.timestamp b) =
      some (.whole (unit.boundary b - unit.boundary a)) := by
  rw [eval_change_mySql (eval_unitsSinceAnchor hunit rfl ha) (eval_unitsSinceAnchor hunit rfl hb),
    sub_sub_sub_cancel_right]

/-- From the year 1000 on, the formulas count the boundaries between two timestamps. -/
theorem eval_mySqlDifference? {unit : DateUnit} {formula : Formula} {a b : Int}
    (hformula : mySqlDifference? unit = some formula) (ha : anchorMicros ≤ a)
    (hb : anchorMicros ≤ b) :
    formula.eval mySqlDatabase (.timestamp a) (.timestamp b) =
      some (.whole (unit.boundary b - unit.boundary a)) := by
  have hstart : Formula.start.eval mySqlDatabase (.timestamp a) (.timestamp b) =
    some (.timestamp a) := rfl
  have hfinish : Formula.finish.eval mySqlDatabase (.timestamp a) (.timestamp b) =
    some (.timestamp b) := rfl
  cases unit with
  | nanosecond => simp [mySqlDifference?] at hformula
  | year | quarter | month | hour | minute | second =>
    cases hformula
    exact eval_change_unitsSinceAnchor (by simp [unitsOfYears]) ha hb
  | millisecond =>
    cases hformula
    rw [eval_change_mySql (eval_millisecondsSinceAnchor hstart ha)
      (eval_millisecondsSinceAnchor hfinish hb), sub_sub_sub_cancel_right]
  | week =>
    cases hformula
    have hweeks := eval_change_mySql (eval_weekEnd hstart) (eval_weekEnd hfinish)
    rw [Formula.eval_operation hweeks rfl]
    simp [mySqlOperate, FormulaOp.onWhole?, ← Int.mul_sub, DateUnit.boundary]
  | dayOfYear | day | microsecond =>
    cases hformula
    rfl

end Dialect

end SqlTree
