import Mathlib.Tactic.FieldSimp
import Mathlib.Tactic.Ring
import SqlTree.Proofs.Dates.Databases
import SqlTree.Proofs.Text.Digits

/-!
# Date differences of Oracle

The first moments of two units are a whole number of units apart. The days between them, scaled to
units, are therefore whole, and rounding does not change them.

Results:
* `Dialect.eval_oracleDifference?`: the formulas count boundaries.
-/

namespace SqlTree

open Calendar

/-- Rounding does not change a whole number. -/
theorem roundAwayFromZero_intCast (n : Int) : roundAwayFromZero n = n := by
  have hfloor (m : Int) : ⌊(m : Rat) + 1 / 2⌋ = m := by
    rw [Int.floor_intCast_add]
    norm_num
  unfold roundAwayFromZero
  split
  · exact hfloor n
  · rw [← Int.cast_neg, hfloor, Int.neg_neg]

namespace Dialect

/-! ## Beginnings of units -/

theorem oracleCivil_seconds (micros : Int) : oracleCivil (micros / 1000000) = civilOf micros := by
  have hday : micros / 1000000 / 86400 = micros / microsPerDay := by
    unfold microsPerDay
    omega
  rw [oracleCivil, hday, civilOf, dayOf]

theorem oracleCivil_first {year : Int} {month : Nat} (h : 1 ≤ month ∧ month ≤ 12) :
    oracleCivil (86400 * dayNumber year month 1) = ⟨year, month, 1⟩ := by
  rw [oracleCivil, Int.mul_ediv_cancel_left _ (by decide),
    civil_dayNumber h ⟨Nat.le_refl 1, daysInMonth_pos year month⟩]

/-- The months between the first moments of two months are whole. -/
theorem oracleMonths_firsts {year year' : Int} {month month' : Nat} (h : 1 ≤ month ∧ month ≤ 12)
    (h' : 1 ≤ month' ∧ month' ≤ 12) :
    oracleMonths (86400 * dayNumber year month 1) (86400 * dayNumber year' month' 1) =
      (monthNumber year month - monthNumber year' month' : Int) := by
  simp [oracleMonths, oracleCivil_first h, oracleCivil_first h']

theorem oracleOperate_exact (op : FormulaOp) (x : Rat) (y : Datum) :
    oracleOperate op (.exact x) y = op.onNumbers? (.exact x) y := by
  cases op <;> rfl

/-! ## Measures -/

section

variable {date : Formula} {s f : Datum} {micros : Int}

theorem eval_truncated {format : String} {x : Datum} {seconds first : Int}
    (hdate : date.eval oracleDatabase s f = some x) (hx : oracleSeconds? x = some seconds)
    (hfirst : oracleTrunc? format seconds = some first) :
    (truncated format date).eval oracleDatabase s f = some (.moment first) := by
  rw [truncated, Formula.eval_call_two hdate rfl]
  simp [oracleCall, hx, hfirst]

/-- Without a format, a date is cut to its day. -/
theorem eval_trunc (hdate : date.eval oracleDatabase s f = some (.timestamp micros)) :
    (Formula.call "TRUNC" [date]).eval oracleDatabase s f =
      some (.moment (86400 * dayOf micros)) := by
  have hday : micros / 1000000 / 86400 = dayOf micros := by
    unfold dayOf microsPerDay
    omega
  rw [Formula.eval_call_one hdate]
  simp [oracleCall, oracleSeconds?, hday]

/-- The Monday of a date is one day after the Sunday that begins its week. -/
theorem eval_isoWeek (hdate : date.eval oracleDatabase s f = some (.timestamp micros)) :
    (isoWeek date).eval oracleDatabase s f =
      some (.moment (86400 * (7 * weekNumber (dayOf micros) + 2))) := by
  have hnext : (Formula.operation date .add (.integer 1)).eval oracleDatabase s f =
      some (.moment (micros / 1000000 + 86400)) := by
    rw [Formula.eval_operation hdate rfl]
    simp [oracleOperate]
  have hmonday : mondayOf ((micros / 1000000 + 86400) / 86400) =
      7 * weekNumber (dayOf micros) + 2 := by
    unfold mondayOf weekNumber dayOf microsPerDay
    omega
  exact eval_truncated hnext rfl (by simp [oracleTrunc?, hmonday])

theorem eval_year (hdate : date.eval oracleDatabase s f = some (.timestamp micros)) :
    (Formula.extract "YEAR" date).eval oracleDatabase s f =
      some (.exact (civilOf micros).year) := by
  simp [Formula.eval, hdate, oracleExtract]

/-- The digits of the second of a minute are read as that second. -/
theorem eval_secondOfMinute (hdate : date.eval oracleDatabase s f = some (.timestamp micros)) :
    (secondOfMinute date).eval oracleDatabase s f =
      some (.exact (micros / 1000000 % 60 : Int)) := by
  have hsecond : ((micros / 1000000 % 60).toNat : Rat) = (micros / 1000000 % 60 : Int) := by
    have hnonneg : ((micros / 1000000 % 60).toNat : Int) = micros / 1000000 % 60 := by omega
    exact_mod_cast congrArg (Int.cast : Int → Rat) hnonneg
  have htext : (Formula.call "TO_CHAR" [date, .text "SS"]).eval oracleDatabase s f =
      some (.text (String.ofList (Text.paddedDigits 2 (micros / 1000000 % 60).toNat))) := by
    rw [Formula.eval_call_two hdate rfl]
    simp [oracleCall, oracleSeconds?]
  rw [secondOfMinute, Formula.eval_call_one htext]
  simp [oracleCall, Text.number?_paddedDigits, hsecond]

end

/-! ## Differences -/

theorem days_of_seconds (days : Int) : ((86400 * days : Int) : Rat) / 86400 = days := by
  rw [Int.cast_mul, Int.cast_ofNat, mul_div_cancel_left₀ _ (by norm_num)]

theorem eval_change_exact {measure : Formula → Formula} {s f : Datum} {x y : Rat}
    (hs : (measure .start).eval oracleDatabase s f = some (.exact x))
    (hf : (measure .finish).eval oracleDatabase s f = some (.exact y)) :
    (Formula.change measure).eval oracleDatabase s f = some (.exact (y - x)) := by
  rw [Formula.eval_change hs hf]
  simp [oracleOperate, FormulaOp.onNumbers?, FormulaOp.onExact?]

/-- The change of a measure whose values are dates is a number of days. -/
theorem eval_change_moment {measure : Formula → Formula} {s f : Datum} {m n : Int}
    (hs : (measure .start).eval oracleDatabase s f = some (.moment m))
    (hf : (measure .finish).eval oracleDatabase s f = some (.moment n)) :
    (Formula.change measure).eval oracleDatabase s f = some (.exact ((n - m : Int) / 86400)) := by
  rw [Formula.eval_change hs hf]
  simp [oracleOperate]

section

variable {a b : Int}

/-- The months between the first moments of two units of whole months, which `first` names by
their first months. -/
theorem eval_monthsBetween {format : String} (first : Nat → Nat)
    (hfirst : ∀ month, 1 ≤ month ∧ month ≤ 12 → 1 ≤ first month ∧ first month ≤ 12)
    (htrunc : ∀ seconds, oracleTrunc? format seconds =
      some (86400 * dayNumber (oracleCivil seconds).year (first (oracleCivil seconds).month) 1)) :
    (monthsBetween format).eval oracleDatabase (.timestamp a) (.timestamp b) =
      some (.exact (monthNumber (civilOf b).year (first (civilOf b).month) -
        monthNumber (civilOf a).year (first (civilOf a).month) : Int)) := by
  have hfirst? (micros : Int) : oracleTrunc? format (micros / 1000000) =
      some (86400 * dayNumber (civilOf micros).year (first (civilOf micros).month) 1) := by
    rw [htrunc, oracleCivil_seconds]
  have hstart : (truncated format .start).eval oracleDatabase (.timestamp a) (.timestamp b) =
      some (.moment (86400 * dayNumber (civilOf a).year (first (civilOf a).month) 1)) :=
    eval_truncated rfl rfl (hfirst? a)
  have hfinish : (truncated format .finish).eval oracleDatabase (.timestamp a) (.timestamp b) =
      some (.moment (86400 * dayNumber (civilOf b).year (first (civilOf b).month) 1)) :=
    eval_truncated rfl rfl (hfirst? b)
  rw [monthsBetween, Formula.eval_call_two hfinish hstart]
  simp [oracleCall, oracleSeconds?,
    oracleMonths_firsts (hfirst _ (month_civilOf b)) (hfirst _ (month_civilOf a))]

/-- If a day has a number of units, then the days between the first moments of two units, scaled by
that number, are the units between them. -/
theorem eval_scaledDays {format : String} {perDay : Int64} (length : Int)
    (htrunc : ∀ seconds, oracleTrunc? format seconds = some (length * (seconds / length)))
    (hday : length * perDay.toInt = 86400) :
    (scaledDays format perDay).eval oracleDatabase (.timestamp a) (.timestamp b) =
      some (.exact (b / 1000000 / length - a / 1000000 / length : Int)) := by
  have hdays : (Formula.change (truncated format)).eval oracleDatabase (.timestamp a)
      (.timestamp b) = some (.exact ((length * (b / 1000000 / length) -
        length * (a / 1000000 / length) : Int) / 86400)) :=
    eval_change_moment (eval_truncated rfl rfl (htrunc _)) (eval_truncated rfl rfl (htrunc _))
  generalize a / 1000000 / length = m, b / 1000000 / length = n at hdays
  -- the days are fractions; only times the units of a day are they whole again
  have hunits : ((length * n - length * m : Int) : Rat) / 86400 * perDay.toInt = (n - m : Int) := by
    have hlength : (length : Rat) * perDay.toInt = 86400 := by exact_mod_cast hday
    rw [← Int.mul_sub, Int.cast_mul, div_mul_eq_mul_div, mul_right_comm, hlength,
      mul_div_cancel_left₀ _ (by norm_num)]
  have hscaled : (Formula.operation (.change (truncated format)) .multiply
      (.integer perDay)).eval oracleDatabase (.timestamp a) (.timestamp b) =
        some (.exact (n - m : Int)) := by
    rw [Formula.eval_operation hdays rfl]
    simp only [oracleDatabase_operate, oracleOperate, FormulaOp.onNumbers?, FormulaOp.onExact?,
      Datum.number?_exact, Datum.number?_whole, Option.bind_some, Option.map_some, hunits]
  rw [scaledDays, Formula.eval_call_one hscaled]
  simp only [oracleDatabase_call, oracleCall, Datum.number?_exact, Option.map_some,
    roundAwayFromZero_intCast]

/-- The formulas count the boundaries between two timestamps. -/
theorem eval_oracleDifference? {unit : DateUnit} {formula : Formula}
    (hformula : oracleDifference? unit = some formula) :
    (formula.eval oracleDatabase (.timestamp a) (.timestamp b)).bind Datum.number? =
      some ((unit.boundary b - unit.boundary a : Int) : Rat) := by
  have hstart : Formula.start.eval oracleDatabase (.timestamp a) (.timestamp b) =
    some (.timestamp a) := rfl
  have hfinish : Formula.finish.eval oracleDatabase (.timestamp a) (.timestamp b) =
    some (.timestamp b) := rfl
  cases unit with
  | millisecond | microsecond | nanosecond => simp [oracleDifference?] at hformula
  | year =>
    cases hformula
    have hyears := eval_change_exact (eval_year hstart) (eval_year hfinish)
    rw [hyears, ← Int.cast_sub]
    rfl
  | quarter =>
    cases hformula
    have hfirst (month : Nat) (h : 1 ≤ month ∧ month ≤ 12) :
        1 ≤ 3 * ((month - 1) / 3) + 1 ∧ 3 * ((month - 1) / 3) + 1 ≤ 12 := by omega
    have hmonths : (monthsBetween "Q").eval oracleDatabase (.timestamp a) (.timestamp b) = _ :=
      eval_monthsBetween _ hfirst fun _ => rfl
    rw [Formula.eval_operation hmonths rfl]
    simp [oracleOperate_exact, FormulaOp.onNumbers?, FormulaOp.onExact?, DateUnit.boundary,
      monthNumber, quarterNumber]
    ring
  | month =>
    cases hformula
    rw [eval_monthsBetween id (fun _ h => h) (fun _ => rfl)]
    rfl
  | dayOfYear | day =>
    cases hformula
    rw [eval_change_moment (eval_trunc hstart) (eval_trunc hfinish), ← Int.mul_sub,
      days_of_seconds]
    rfl
  | week =>
    cases hformula
    have hweeks := eval_change_moment (eval_isoWeek hstart) (eval_isoWeek hfinish)
    rw [← Int.mul_sub, days_of_seconds] at hweeks
    rw [Formula.eval_operation hweeks rfl]
    simp [oracleOperate_exact, FormulaOp.onNumbers?, FormulaOp.onExact?, DateUnit.boundary]
    ring
  | hour =>
    cases hformula
    rw [eval_scaledDays 3600 (fun _ => rfl) (by decide), Int.ediv_ediv_of_nonneg (by decide),
      Int.ediv_ediv_of_nonneg (by decide)]
    rfl
  | minute =>
    cases hformula
    rw [eval_scaledDays 60 (fun _ => rfl) (by decide), Int.ediv_ediv_of_nonneg (by decide),
      Int.ediv_ediv_of_nonneg (by decide)]
    rfl
  | second =>
    cases hformula
    have hminutes : (Formula.operation (scaledDays "MI" 1440) .multiply (.integer 60)).eval
        oracleDatabase (.timestamp a) (.timestamp b) =
          some (.exact (60 * (b / 1000000 / 60 - a / 1000000 / 60) : Int)) := by
      rw [Formula.eval_operation (eval_scaledDays 60 (fun _ => rfl) (by decide)) rfl]
      simp [oracleOperate_exact, FormulaOp.onNumbers?, FormulaOp.onExact?, Rat.mul_comm]
    have hseconds := eval_change_exact (eval_secondOfMinute hstart) (eval_secondOfMinute hfinish)
    -- minutes and the second of the minute carry the boundaries of seconds together
    have hsum : 60 * (b / 1000000 / 60 - a / 1000000 / 60) + (b / 1000000 % 60 - a / 1000000 % 60) =
        DateUnit.second.boundary b - DateUnit.second.boundary a := by
      simp only [DateUnit.boundary]
      omega
    rw [Formula.eval_operation hminutes hseconds, ← hsum]
    simp [oracleOperate_exact, FormulaOp.onNumbers?, FormulaOp.onExact?]

end

end Dialect

end SqlTree
