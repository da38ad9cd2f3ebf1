import Mathlib.Data.Rat.Floor
import Mathlib.Tactic.Simps.Basic
import SqlTree.Calendar.Reader
import SqlTree.Dialect.DateDifference
import SqlTree.Proofs.Dates.Boundaries

/-!
# The date functions of the databases

What the functions and operations of the formulas compute, by the documentation of each database,
on timestamps without a time zone. Numbers are exact. A function, operation or format that no
formula uses has no value here.

* `Datum`: the values that formulas compute with;
* `Dialect.database`: the functions and operations of a database;
* `Formula.eval`: the value of a formula over two dates.
-/

namespace SqlTree

open Calendar

/-- A value that a formula computes with. -/
inductive Datum where
  /-- A timestamp, as microseconds from the first moment of the year 0. -/
  | timestamp (micros : Int)
  /-- A date without a time of day, by the number of its day. -/
  | date (day : Int)
  /-- A date with a time of day, as seconds from the first moment of the year 0. -/
  | moment (seconds : Int)
  | whole (n : Int)
  | exact (q : Rat)
  | text (s : String)
  | word (s : String)

/-- The number that a value is. -/
def Datum.number? : Datum → Option Rat
  | whole n => some n
  | exact q => some q
  | _ => none

@[simp] theorem Datum.number?_whole (n : Int) : (whole n).number? = some (n : Rat) := rfl

@[simp] theorem Datum.number?_exact (q : Rat) : (exact q).number? = some q := rfl

/-- The functions and operations of a database. -/
structure Database where
  call : String → List Datum → Option Datum
  operate : FormulaOp → Datum → Datum → Option Datum
  extract : String → Datum → Option Datum
  cast : String → Datum → Option Datum

/-! ## Arithmetic -/

namespace FormulaOp

/-- An operation on whole numbers with a whole result. -/
def onWhole? (op : FormulaOp) (a b : Int) : Option Int :=
  match op with
  | add => some (a + b)
  | subtract => some (a - b)
  | multiply => some (a * b)
  | divide => none
  | wholeDivide => if b = 0 then none else some (a.tdiv b)

/-- An operation on numbers with an exact result. -/
def onExact? (op : FormulaOp) (x y : Rat) : Option Rat :=
  match op with
  | add => some (x + y)
  | subtract => some (x - y)
  | multiply => some (x * y)
  | divide => if y = 0 then none else some (x / y)
  | wholeDivide => none

/-- An operation on numbers of any kind with an exact result. -/
def onNumbers? (op : FormulaOp) (x y : Datum) : Option Datum :=
  x.number?.bind fun a => y.number?.bind fun b => (op.onExact? a b).map .exact

end FormulaOp

/-- A number rounded to the nearest whole number, and away from zero if two are equally near. -/
def roundAwayFromZero (q : Rat) : Int :=
  if 0 ≤ q then ⌊q + 1 / 2⌋ else -⌊-q + 1 / 2⌋

/-! ## Calendars -/

namespace Calendar

/-- The days since the last Sunday. -/
def daysSinceSunday (day : Int) : Int := (day + 6) % 7

-- 1 January 1970 was a Thursday
example : daysSinceSunday (dayNumber 1970 1 1) = 4 := by decide

/-- The Monday on or before a day. -/
def mondayOf (day : Int) : Int := day - (day + 5) % 7

/-- The place of a moment in its month: the day and the time of day, in microseconds. -/
def timeOfMonth (micros : Int) : Int :=
  microsPerDay * (civilOf micros).day + micros % microsPerDay

/-- The whole months that end no later than the second of two moments. -/
def wholeMonthsUntil (a b : Int) : Int :=
  DateUnit.month.boundary b - DateUnit.month.boundary a -
    if timeOfMonth b < timeOfMonth a then 1 else 0

/-- The whole months between two moments, negative if the second is the earlier one. -/
def wholeMonths (a b : Int) : Int :=
  if a ≤ b then wholeMonthsUntil a b else -wholeMonthsUntil b a

end Calendar

namespace Dialect

/-! ## SQL Server -/

/-- The units of `DATEDIFF`, by the names that are documented for them. -/
def sqlServerUnit? : String → Option DateUnit
  | "YEAR" => some .year
  | "QUARTER" => some .quarter
  | "MONTH" => some .month
  | "DAYOFYEAR" => some .dayOfYear
  | "DAY" => some .day
  | "WEEK" => some .week
  | "HOUR" => some .hour
  | "MINUTE" => some .minute
  | "SECOND" => some .second
  | "MILLISECOND" => some .millisecond
  | "MICROSECOND" => some .microsecond
  | "NANOSECOND" => some .nanosecond
  | _ => none

/-- `DATEDIFF` counts boundaries. -/
def sqlServerCall : String → List Datum → Option Datum
  | "DATEDIFF", [.word w, .timestamp a, .timestamp b] =>
    (sqlServerUnit? w).map fun unit => .whole (unit.boundary b - unit.boundary a)
  | _, _ => none

theorem sqlServerUnit?_keyword (unit : DateUnit) : sqlServerUnit? unit.keyword = some unit := by
  cases unit <;> rfl

/-- SQL Server needs no operations. -/
@[simps]
def sqlServerDatabase : Database where
  call := sqlServerCall
  operate _ _ _ := none
  extract _ _ := none
  cast _ _ := none

/-! ## MySQL -/

/-- A date in microseconds; a text is read as the first moment of the day it names. -/
def mySqlMicros? : Datum → Option Int
  | .timestamp micros => some micros
  | .text s => (Date.ofText? s.toList).map fun date => microsPerDay * date.dayNumber
  | _ => none

@[simp] theorem mySqlMicros?_timestamp (micros : Int) :
    mySqlMicros? (.timestamp micros) = some micros := rfl

/-- The whole units between two moments, by the names that are documented for the units. -/
def timestampDiff? (unit : String) (a b : Int) : Option Int :=
  match unit with
  | "YEAR" => some ((wholeMonths a b).tdiv 12)
  | "QUARTER" => some ((wholeMonths a b).tdiv 3)
  | "MONTH" => some (wholeMonths a b)
  | "WEEK" => some ((b - a).tdiv (7 * microsPerDay))
  | "DAY" => some ((b - a).tdiv microsPerDay)
  | "HOUR" => some ((b - a).tdiv 3600000000)
  | "MINUTE" => some ((b - a).tdiv 60000000)
  | "SECOND" => some ((b - a).tdiv 1000000)
  | "MICROSECOND" => some (b - a)
  | _ => none

/-- `TIMESTAMPDIFF` counts whole units from its second to its third argument, `DATEDIFF` days from
its second to its first. `DAYOFWEEK` is 1 on Sundays. -/
def mySqlCall : String → List Datum → Option Datum
  | "TIMESTAMPDIFF", [.word w, a, b] => do
    return .whole (← timestampDiff? w (← mySqlMicros? a) (← mySqlMicros? b))
  | "DATEDIFF", [a, b] => do
    return .whole (dayOf (← mySqlMicros? a) - dayOf (← mySqlMicros? b))
  | "TO_DAYS", [a] => do
    return .whole (dayOf (← mySqlMicros? a))
  | "DAYOFWEEK", [a] => do
    return .whole (1 + daysSinceSunday (dayOf (← mySqlMicros? a)))
  | _, _ => none

/-- A quotient is exact; whole numbers have whole sums, differences and products. -/
def mySqlOperate (op : FormulaOp) (x y : Datum) : Option Datum :=
  match op, x, y with
  | .divide, x, y => FormulaOp.divide.onNumbers? x y
  | op, .whole a, .whole b => (op.onWhole? a b).map .whole
  | op, x, y => op.onNumbers? x y

/-- The functions and operations of MySQL. -/
@[simps]
def mySqlDatabase : Database where
  call := mySqlCall
  operate := mySqlOperate
  extract _ _ := none
  cast _ _ := none

/-! ## Postgres -/

/-- A numbered part of a day. -/
def postgresPart? (part : String) (c : Civil) : Option Int :=
  match part with
  | "year" => some c.year
  | "quarter" => some ((c.month - 1) / 3 + 1 : Nat)
  | "month" => some c.month
  | _ => none

/-- `DATE_TRUNC` returns the first moment of a week, which begins on Monday. -/
def postgresCall : String → List Datum → Option Datum
  | "DATE_PART", [.text part, .timestamp a] =>
    (postgresPart? part (civilOf a)).map fun n => .exact n
  | "DATE_TRUNC", [.text "week", .date n] => some (.timestamp (microsPerDay * mondayOf n))
  | "FLOOR", [x] => x.number?.map fun q => .exact ⌊q⌋
  | _, _ => none

/-- The quotient of two whole numbers is cut towards zero. The difference of two dates is a whole
number of days. -/
def postgresOperate (op : FormulaOp) (x y : Datum) : Option Datum :=
  match op, x, y with
  | .add, .date n, .whole days => some (.date (n + days))
  | .subtract, .date m, .date n => some (.whole (m - n))
  | .divide, .whole a, .whole b => (FormulaOp.wholeDivide.onWhole? a b).map .whole
  | .wholeDivide, _, _ => none
  | op, .whole a, .whole b => (op.onWhole? a b).map .whole
  | op, x, y => op.onNumbers? x y

/-- The seconds since the first moment of 1970, with their fraction. -/
def epochSeconds (micros : Int) : Rat :=
  (micros - microsPerDay * dayNumber 1970 1 1 : Int) / 1000000

/-- `EPOCH` is the time since 1970. -/
def postgresExtract : String → Datum → Option Datum
  | "EPOCH", .timestamp a => some (.exact (epochSeconds a))
  | _, _ => none

/-- A timestamp becomes the date of its day. -/
def postgresCast : String → Datum → Option Datum
  | "DATE", .timestamp a => some (.date (dayOf a))
  | "DATE", .date n => some (.date n)
  | _, _ => none

/-- The functions and operations of Postgres. -/
@[simps]
def postgresDatabase : Database where
  call := postgresCall
  operate := postgresOperate
  extract := postgresExtract
  cast := postgresCast

/-! ## Oracle -/

/-- A date in whole seconds. -/
def oracleSeconds? : Datum → Option Int
  | .timestamp micros => some (micros / 1000000)
  | .moment seconds => some seconds
  | _ => none

/-- The day of a number of seconds. -/
def oracleCivil (seconds : Int) : Civil := civil (seconds / 86400)

/-- The beginning of the unit that a format names, in seconds. -/
def oracleTrunc? (format : String) (seconds : Int) : Option Int :=
  let c := oracleCivil seconds
  match format with
  | "Q" => some (86400 * dayNumber c.year (3 * ((c.month - 1) / 3) + 1) 1)
  | "MM" => some (86400 * dayNumber c.year c.month 1)
  | "IW" => some (86400 * mondayOf (seconds / 86400))
  | "HH24" => some (3600 * (seconds / 3600))
  | "MI" => some (60 * (seconds / 60))
  | _ => none

/-- Whether a day is the last one of its month. -/
def isLastOfMonth (c : Civil) : Bool := c.day == daysInMonth c.year c.month

/-- The months from the second of two moments to the first: a whole number if both are the same
days of their months, or both the last ones; otherwise the days and the time of day that remain are
parts of a month of 31 days. -/
def oracleMonths (a b : Int) : Rat :=
  let c := oracleCivil a
  let d := oracleCivil b
  let months := monthNumber c.year c.month - monthNumber d.year d.month
  if c.day = d.day ∨ (isLastOfMonth c ∧ isLastOfMonth d) then months
  else months + (86400 * ((c.day : Int) - d.day) + (a % 86400 - b % 86400) : Int) / (31 * 86400)

/-- `TRUNC` without a format returns the first moment of a day. -/
def oracleCall : String → List Datum → Option Datum
  | "TRUNC", [a] => do return .moment (86400 * ((← oracleSeconds? a) / 86400))
  | "TRUNC", [a, .text format] => do
    return .moment (← oracleTrunc? format (← oracleSeconds? a))
  | "MONTHS_BETWEEN", [a, b] => do
    return .exact (oracleMonths (← oracleSeconds? a) (← oracleSeconds? b))
  | "TO_CHAR", [a, .text "SS"] => do
    return .text (String.ofList (Text.paddedDigits 2 ((← oracleSeconds? a) % 60).toNat))
  | "TO_NUMBER", [.text s] => (Text.number? s.toList).map fun n => .exact n
  | "ROUND", [x] => x.number?.map fun q => .exact (roundAwayFromZero q)
  | _, _ => none

/-- A date and a number of days make a date with the same time of day, to the second. The difference
of two dates is a number of days. -/
def oracleOperate (op : FormulaOp) (x y : Datum) : Option Datum :=
  match op, x, y with
  | .add, .timestamp micros, .whole days => some (.moment (micros / 1000000 + 86400 * days))
  | .add, .moment seconds, .whole days => some (.moment (seconds + 86400 * days))
  | .subtract, .moment a, .moment b => some (.exact ((a - b : Int) / 86400))
  | op, x, y => op.onNumbers? x y

/-- The year of a timestamp. -/
def oracleExtract : String → Datum → Option Datum
  | "YEAR", .timestamp a => some (.exact (civilOf a).year)
  | _, _ => none

/-- The functions and operations of Oracle. -/
@[simps]
def oracleDatabase : Database where
  call := oracleCall
  operate := oracleOperate
  extract := oracleExtract
  cast _ _ := none

/-! ## Formulas -/

/-- The functions and operations of a dialect's database. -/
def database : Dialect → Database
  | sqlServer => sqlServerDatabase
  | oracle => oracleDatabase
  | mySql => mySqlDatabase
  | postgres => postgresDatabase

end Dialect

namespace Formula

mutual

/-- The value of a formula, with the given values for the two dates. -/
def eval (db : Database) (s f : Datum) : Formula → Option Datum
  | start => some s
  | finish => some f
  | integer n => some (.whole n.toInt)
  | text t => some (.text t)
  | word w => some (.word w)
  | call function args => (evalAll db s f args).bind (db.call function)
  | operation left op right =>
    (left.eval db s f).bind fun x => (right.eval db s f).bind (db.operate op x)
  | extract part date => (date.eval db s f).bind (db.extract part)
  | cast value type => (value.eval db s f).bind (db.cast type)

/-- The values of the formulas of a list. -/
def evalAll (db : Database) (s f : Datum) : List Formula → Option (List Datum)
  | [] => some []
  | x :: xs => (x.eval db s f).bind fun v => (evalAll db s f xs).map (v :: ·)

end

section

variable {db : Database} {s f : Datum} {function : String} {left right date : Formula} {x y : Datum}

theorem eval_call_one (hdate : date.eval db s f = some x) :
    (call function [date]).eval db s f = db.call function [x] := by
  simp [eval, evalAll, hdate]

theorem eval_call_two (hleft : left.eval db s f = some x) (hright : right.eval db s f = some y) :
    (call function [left, right]).eval db s f = db.call function [x, y] := by
  simp [eval, evalAll, hleft, hright]

theorem eval_call_three {third : Formula} {z : Datum} (hleft : left.eval db s f = some x)
    (hright : right.eval db s f = some y) (hthird : third.eval db s f = some z) :
    (call function [left, right, third]).eval db s f = db.call function [x, y, z] := by
  simp [eval, evalAll, hleft, hright, hthird]

theorem eval_operation {op : FormulaOp} (hleft : left.eval db s f = some x)
    (hright : right.eval db s f = some y) :
    (operation left op right).eval db s f = db.operate op x y := by
  simp [eval, hleft, hright]

/-- The change of a measure is the difference of its values. -/
theorem eval_change {measure : Formula → Formula} (hstart : (measure start).eval db s f = some x)
    (hfinish : (measure finish).eval db s f = some y) :
    (change measure).eval db s f = db.operate .subtract y x :=
  eval_operation hfinish hstart

end

end Formula

end SqlTree
