import SqlTree.Proofs.Dates.MySql
import SqlTree.Proofs.Dates.Oracle
import SqlTree.Proofs.Dates.Postgres

/-!
# Date differences

The formula of a unit computes the same number on every dialect that has one: the boundaries of the
unit between two timestamps, negative if the second is the earlier one.

Results:
* `Dialect.eval_dateDifference?`: the formulas of all dialects count boundaries.
-/

namespace SqlTree

open Calendar

/-- A timestamp that every database has: of the years 1000 to 9999, exact to the microsecond, and in
no leap second. -/
structure Calendar.Timestamp.IsPortable (t : Timestamp) : Prop where
  year : 1000 ≤ t.date.year ∧ t.date.year ≤ 9999
  noLeap : t.time.nano < 10 ^ 9
  micro : 1000 ∣ t.time.nano

/-- The timestamps from the year 1000 on do not come before the first moment of that year. -/
theorem Calendar.Timestamp.IsPortable.anchorMicros_le {t : Timestamp} (h : t.IsPortable) :
    anchorMicros ≤ t.microseconds := by
  have hanchor : anchorMicros = microsPerDay * daysBeforeYear 1000 := by decide
  have hyear : daysBeforeYear 1000 ≤ daysBeforeYear t.date.year :=
    daysBeforeYear_succ_le (Int.lt_of_lt_of_le (by decide : (999 : Int) < 1000) h.year.1)
  have hday : daysBeforeYear t.date.year ≤ t.date.dayNumber := by
    have := t.date.isDay.2.2.1
    unfold Date.dayNumber dayNumber
    omega
  rw [hanchor]
  unfold Timestamp.microseconds Timestamp.seconds microsPerDay
  omega

namespace Dialect

/-- SQL Server has a function for the boundaries of every unit. -/
theorem eval_sqlServerDifference (unit : DateUnit) (a b : Int) :
    (sqlServerDifference unit).eval sqlServerDatabase (.timestamp a) (.timestamp b) =
      some (.whole (unit.boundary b - unit.boundary a)) := by
  rw [sqlServerDifference, Formula.eval_call_three rfl rfl rfl]
  simp [sqlServerCall, sqlServerUnit?_keyword]

theorem eval_dateDifference?_boundary {d : Dialect} {unit : DateUnit} {formula : Formula}
    {a b : Int} (hformula : d.dateDifference? unit = some formula) (ha : anchorMicros ≤ a)
    (hb : anchorMicros ≤ b) :
    (formula.eval d.database (.timestamp a) (.timestamp b)).bind Datum.number? =
      some ((unit.boundary b - unit.boundary a : Int) : Rat) := by
  cases d with
  | sqlServer =>
    cases hformula
    rw [database, eval_sqlServerDifference]
    rfl
  | mySql =>
    rw [database, eval_mySqlDifference? hformula ha hb]
    rfl
  | postgres => exact eval_postgresDifference? hformula
  | oracle => exact eval_oracleDifference? hformula

end Dialect

end SqlTree
