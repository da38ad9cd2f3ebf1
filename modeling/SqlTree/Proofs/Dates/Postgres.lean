import Mathlib.Tactic.FieldSimp
import Mathlib.Tactic.Ring
import SqlTree.Proofs.Dates.Databases

/-!
# Date differences of Postgres

The parts of a date and the seconds since 1970 are exact numbers; the floor of a scaled number of
seconds numbers the units, also before 1970.

Results:
* `Dialect.eval_postgresDifference?`: the formulas count boundaries.
-/

namespace SqlTree

open Calendar

namespace Dialect

/-! ## Measures -/

section

variable {date : Formula} {s f : Datum} {micros : Int}

/-- The value of a numbered part of a timestamp. -/
theorem eval_datePart {part : String} {n : Int}
    (hdate : date.eval postgresDatabase s f = some (.timestamp micros))
    (hpart : postgresPart? part (civilOf micros) = some n) :
    (datePart part date).eval postgresDatabase s f = some (.exact n) := by
  rw [datePart, Formula.eval_call_two rfl hdate]
  simp [postgresCall, hpart]

/-- A timestamp as a date is its day. -/
theorem eval_cast_date (hdate : date.eval postgresDatabase s f = some (.timestamp micros)) :
    (Formula.cast date "DATE").eval postgresDatabase s f = some (.date (dayOf micros)) := by
  simp [Formula.eval, hdate, postgresCast]

theorem dayOf_microsPerDay_mul (day : Int) : dayOf (microsPerDay * day) = day := by
  simp [dayOf, microsPerDay]

/-- The Monday of a date is one day after the Sunday that begins its week. -/
theorem eval_weekMonday (hdate : date.eval postgresDatabase s f = some (.timestamp micros)) :
    (weekMonday date).eval postgresDatabase s f =
      some (.date (7 * weekNumber (dayOf micros) + 2)) := by
  have hmonday : mondayOf (dayOf micros + 1) = 7 * weekNumber (dayOf micros) + 2 := by
    unfold mondayOf weekNumber
    omega
  have hnext : (Formula.operation (.cast date "DATE") .add (.integer 1)).eval postgresDatabase s f =
      some (.date (dayOf micros + 1)) := by
    rw [Formula.eval_operation (eval_cast_date hdate) rfl]
    simp [postgresOperate]
  rw [weekMonday, Formula.eval, Formula.eval_call_two rfl hnext]
  simp [postgresCast, postgresCall, dayOf_microsPerDay_mul, hmonday]

/-- A number of seconds scaled to a unit. -/
def scaled? (scale : Option (FormulaOp × Int64)) (seconds : Rat) : Option Rat :=
  match scale with
  | none => some seconds
  | some (op, factor) => op.onExact? seconds factor.toInt

theorem scaled?_divide {factor : Int64} {n : Int} (k : Nat) (hfactor : factor.toInt = k)
    (hpos : k ≠ 0) :
    scaled? (some (.divide, factor)) (n / 1000000) = some ((n : Rat) / (1000000 * k : Nat)) := by
  have hzero : (k : Rat) ≠ 0 := Nat.cast_ne_zero.mpr hpos
  simp only [scaled?, FormulaOp.onExact?, hfactor, Int.cast_natCast, if_neg hzero, div_div,
    Nat.cast_mul, Nat.cast_ofNat]

theorem scaled?_multiply {factor : Int64} {n : Int} (k : Nat)
    (hfactor : factor.toInt * k = 1000000) :
    scaled? (some (.multiply, factor)) (n / 1000000) = some ((n : Rat) / k) := by
  have hproduct : (factor.toInt : Rat) * k = 1000000 := by exact_mod_cast hfactor
  have hne : (factor.toInt : Rat) * k ≠ 0 := by
    rw [hproduct]
    norm_num
  obtain ⟨hfactorne, hkne⟩ := mul_ne_zero_iff.mp hne
  simp only [scaled?, FormulaOp.onExact?, ← hproduct]
  field_simp

theorem postgresOperate_exact_whole (op : FormulaOp) (x : Rat) (n : Int) :
    postgresOperate op (.exact x) (.whole n) = (op.onExact? x n).map .exact := by
  cases op <;> simp [postgresOperate, FormulaOp.onNumbers?, FormulaOp.onExact?]

theorem eval_epochUnits {scale : Option (FormulaOp × Int64)} {q : Rat}
    (hdate : date.eval postgresDatabase s f = some (.timestamp micros))
    (hscaled : scaled? scale (epochSeconds micros) = some q) :
    (epochUnits scale date).eval postgresDatabase s f = some (.exact ⌊q⌋) := by
  have hseconds : (Formula.extract "EPOCH" date).eval postgresDatabase s f =
      some (.exact (epochSeconds micros)) := by
    simp [Formula.eval, hdate, postgresExtract]
  cases scale with
  | none =>
    cases hscaled
    rw [epochUnits, Formula.eval_call_one hseconds]
    simp [postgresCall]
  | some scale =>
    have heval : (Formula.operation (.extract "EPOCH" date) scale.1 (.integer scale.2)).eval
        postgresDatabase s f = some (.exact q) := by
      rw [scaled?] at hscaled
      rw [Formula.eval_operation hseconds rfl]
      simp [postgresOperate_exact_whole, hscaled]
    rw [epochUnits, Formula.eval_call_one heval]
    simp [postgresCall]

/-- If the scaled seconds are units of a length in microseconds, then their floor numbers the
units. -/
theorem eval_epochUnits_of_length {scale : Option (FormulaOp × Int64)} {length : Nat}
    (hlength : ∀ n : Int, scaled? scale (n / 1000000) = some ((n : Rat) / length))
    (hdate : date.eval postgresDatabase s f = some (.timestamp micros)) :
    (epochUnits scale date).eval postgresDatabase s f =
      some (.exact ((micros - microsPerDay * dayNumber 1970 1 1) / length : Int)) := by
  rw [eval_epochUnits hdate (hlength _), Rat.floor_intCast_div_natCast]

end

/-! ## Differences -/

/-- The change of a measure with exact values is the difference of its values. -/
theorem eval_change_postgres {measure : Formula → Formula} {s f : Datum} {x y : Rat}
    (hs : (measure .start).eval postgresDatabase s f = some (.exact x))
    (hf : (measure .finish).eval postgresDatabase s f = some (.exact y)) :
    (Formula.change measure).eval postgresDatabase s f = some (.exact (y - x)) := by
  rw [Formula.eval_change hs hf]
  simp [postgresOperate, FormulaOp.onNumbers?, FormulaOp.onExact?]

theorem eval_change_date {measure : Formula → Formula} {s f : Datum} {m n : Int}
    (hs : (measure .start).eval postgresDatabase s f = some (.date m))
    (hf : (measure .finish).eval postgresDatabase s f = some (.date n)) :
    (Formula.change measure).eval postgresDatabase s f = some (.whole (n - m)) := by
  rw [Formula.eval_change hs hf]
  simp [postgresOperate]

/-- The years and a part of them, in units of which a year has a fixed number. -/
theorem eval_yearsAnd {perYear : Int64} {part : String} {a b m n : Int}
    (hm : postgresPart? part (civilOf a) = some m) (hn : postgresPart? part (civilOf b) = some n) :
    (yearsAnd perYear part).eval postgresDatabase (.timestamp a) (.timestamp b) =
      some (.exact (((civilOf b).year - (civilOf a).year) * perYear.toInt + (n - m))) := by
  have hyears : (Formula.change (datePart "year")).eval postgresDatabase (.timestamp a)
      (.timestamp b) = some (.exact ((civilOf b).year - (civilOf a).year)) :=
    eval_change_postgres (eval_datePart rfl rfl) (eval_datePart rfl rfl)
  have hparts : (Formula.change (datePart part)).eval postgresDatabase (.timestamp a)
      (.timestamp b) = some (.exact (n - m)) :=
    eval_change_postgres (eval_datePart rfl hm) (eval_datePart rfl hn)
  have hscaled : (Formula.operation (.change (datePart "year")) .multiply (.integer perYear)).eval
      postgresDatabase (.timestamp a) (.timestamp b) =
        some (.exact (((civilOf b).year - (civilOf a).year) * perYear.toInt)) := by
    rw [Formula.eval_operation hyears rfl]
    simp [postgresOperate_exact_whole, FormulaOp.onExact?]
  rw [yearsAnd, Formula.eval_operation hscaled hparts]
  simp [postgresOperate, FormulaOp.onNumbers?, FormulaOp.onExact?]

/-- If the scaled seconds are units of a length in microseconds, and a day has a whole number of
them, then the change of their floor counts the boundaries. -/
theorem eval_change_epochUnits {scale : Option (FormulaOp × Int64)} {a b : Int} (length : Nat)
    (hlength : ∀ n : Int, scaled? scale (n / 1000000) = some ((n : Rat) / length))
    (hday : (length : Int) ∣ microsPerDay) :
    (Formula.change (epochUnits scale)).eval postgresDatabase (.timestamp a) (.timestamp b) =
      some (.exact (b / length - a / length : Int)) := by
  -- 1970 begins with a unit, so counting from there does not move the boundaries
  have hepoch : (length : Int) ∣ microsPerDay * dayNumber 1970 1 1 := hday.mul_right _
  rw [eval_change_postgres (eval_epochUnits_of_length hlength rfl)
    (eval_epochUnits_of_length hlength rfl), Int.sub_ediv_of_dvd _ hepoch,
    Int.sub_ediv_of_dvd _ hepoch, ← Int.cast_sub, sub_sub_sub_cancel_right]

/-- The formulas count the boundaries between two timestamps. -/
theorem eval_postgresDifference? {unit : DateUnit} {formula : Formula} {a b : Int}
    (hformula : postgresDifference? unit = some formula) :
    (formula.eval postgresDatabase (.timestamp a) (.timestamp b)).bind Datum.number? =
      some ((unit.boundary b - unit.boundary a : Int) : Rat) := by
  have hstart : Formula.start.eval postgresDatabase (.timestamp a) (.timestamp b) =
    some (.timestamp a) := rfl
  have hfinish : Formula.finish.eval postgresDatabase (.timestamp a) (.timestamp b) =
    some (.timestamp b) := rfl
  cases unit with
  | nanosecond => simp [postgresDifference?] at hformula
  | year =>
    cases hformula
    rw [eval_change_postgres (eval_datePart hstart rfl) (eval_datePart hfinish rfl)]
    simp [DateUnit.boundary]
  | quarter =>
    cases hformula
    have hperYear : (4 : Int64).toInt = 4 := by decide
    rw [eval_yearsAnd rfl rfl, hperYear]
    simp only [Option.bind_some, Datum.number?_exact, DateUnit.boundary, quarterNumber]
    push_cast
    ring_nf
  | month =>
    cases hformula
    have hperYear : (12 : Int64).toInt = 12 := by decide
    rw [eval_yearsAnd rfl rfl, hperYear]
    simp only [Option.bind_some, Datum.number?_exact, DateUnit.boundary, monthNumber,
      Nat.cast_sub (month_civilOf _).1]
    push_cast
    ring_nf
  | dayOfYear | day =>
    cases hformula
    rw [eval_change_date (eval_cast_date hstart) (eval_cast_date hfinish)]
    rfl
  | week =>
    cases hformula
    have hweeks := eval_change_date (eval_weekMonday hstart) (eval_weekMonday hfinish)
    rw [Formula.eval_operation hweeks rfl]
    simp [postgresOperate, FormulaOp.onWhole?, ← Int.mul_sub, DateUnit.boundary]
  | hour =>
    cases hformula
    rw [eval_change_epochUnits 3600000000 (fun _ => scaled?_divide 3600 (by decide) (by decide))
      (by decide)]
    rfl
  | minute =>
    cases hformula
    rw [eval_change_epochUnits 60000000 (fun _ => scaled?_divide 60 (by decide) (by decide))
      (by decide)]
    rfl
  | second =>
    cases hformula
    rw [eval_change_epochUnits 1000000 (fun _ => rfl) (by decide)]
    rfl
  | millisecond =>
    cases hformula
    rw [eval_change_epochUnits 1000 (fun _ => scaled?_multiply 1000 (by decide)) (by decide)]
    rfl
  | microsecond =>
    cases hformula
    rw [eval_change_epochUnits 1 (fun _ => scaled?_multiply 1 (by decide)) (by decide)]
    simp [DateUnit.boundary]

end Dialect

end SqlTree
