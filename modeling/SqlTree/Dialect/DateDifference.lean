import SqlTree.Syntax.Words
import SqlTree.Token

/-!
# The distance of two dates

The distance of two dates in a unit is the number of boundaries of the unit that lie between them.
Only one dialect has a function for it; the others compute it from what they have. A formula is a
tree over the two dates, so that it can be written, and also evaluated.

* `Formula`: function calls and operations over a start and a finish;
* `Dialect.dateDifference?`: the formula of a unit, unless the dialect's dates are too coarse;
* `Formula.tokens`: the formula with tokens in the places of the two dates.
-/

namespace SqlTree

/-- The operations of formulas. -/
inductive FormulaOp where
  | add
  | subtract
  | multiply
  | divide
  /-- Division without a remainder. -/
  | wholeDivide
deriving DecidableEq, Repr

/-- The token of an operation. -/
def FormulaOp.token : FormulaOp → Token
  | add => .symbol .plus
  | subtract => .symbol .minus
  | multiply => .symbol .times
  | divide => .symbol .divide
  | wholeDivide => .raw "DIV"

/-- A computation from two dates. -/
inductive Formula where
  | start
  | finish
  | integer (n : Int64)
  | text (s : String)
  /-- A bare word, such as a unit. -/
  | word (s : String)
  | call (function : String) (args : List Formula)
  | operation (left : Formula) (op : FormulaOp) (right : Formula)
  /-- A named part of a date. -/
  | extract (part : String) (date : Formula)
  | cast (value : Formula) (type : String)

namespace Formula

mutual

/-- The tokens of a formula, with the given tokens for the two dates. -/
def tokens (s f : List Token) : Formula → List Token
  | start => s
  | finish => f
  | integer n => [.integer n]
  | text t => [.string t]
  | word w => [.raw w]
  | call function args => Token.call function (tokensOfAll s f args)
  | operation left op right => Token.operation (left.tokens s f) op.token (right.tokens s f)
  | extract part date =>
    .function "EXTRACT" ::
      Token.parens (Token.words [[.raw part], [.keyword .FROM], date.tokens s f])
  | cast value type =>
    .function "CAST" ::
      Token.parens (Token.words [value.tokens s f, [.keyword .AS], [.raw type]])

/-- The tokens of each formula of a list. -/
def tokensOfAll (s f : List Token) : List Formula → List (List Token)
  | [] => []
  | x :: xs => x.tokens s f :: tokensOfAll s f xs

end

/-- The difference of one measure at the finish and at the start. -/
def change (measure : Formula → Formula) : Formula :=
  operation (measure finish) .subtract (measure start)

end Formula

namespace Dialect

open Formula

/-! ## SQL Server -/

/-- SQL Server counts the boundaries of every unit. -/
def sqlServerDifference (unit : DateUnit) : Formula :=
  call "DATEDIFF" [word unit.keyword, start, finish]

/-! ## MySQL -/

/-- The whole units between the earliest date of MySQL and a date. As that date is the beginning
of a year, they number the units. -/
def unitsSinceAnchor (unit : String) (date : Formula) : Formula :=
  call "TIMESTAMPDIFF" [word unit, text "1000-01-01", date]

/-- The number of the Saturday before a date. -/
def weekEnd (date : Formula) : Formula :=
  operation (call "TO_DAYS" [date]) .subtract (call "DAYOFWEEK" [date])

/-- MySQL has no date finer than a microsecond. -/
def mySqlDifference? : DateUnit → Option Formula
  | .year => some (change (unitsSinceAnchor "YEAR"))
  | .quarter => some (change (unitsSinceAnchor "QUARTER"))
  | .month => some (change (unitsSinceAnchor "MONTH"))
  | .dayOfYear | .day => some (call "DATEDIFF" [finish, start])
  | .week => some (operation (change weekEnd) .wholeDivide (integer 7))
  | .hour => some (change (unitsSinceAnchor "HOUR"))
  | .minute => some (change (unitsSinceAnchor "MINUTE"))
  | .second => some (change (unitsSinceAnchor "SECOND"))
  | .millisecond =>
    some (change fun date =>
      operation (unitsSinceAnchor "MICROSECOND" date) .wholeDivide (integer 1000))
  | .microsecond => some (call "TIMESTAMPDIFF" [word "MICROSECOND", start, finish])
  | .nanosecond => none

/-! ## Postgres -/

/-- A numbered part of a date. -/
def datePart (part : String) (date : Formula) : Formula := call "DATE_PART" [text part, date]

/-- The distance in units of which a year has a fixed number. -/
def yearsAnd (perYear : Int64) (part : String) : Formula :=
  operation (operation (change (datePart "year")) .multiply (integer perYear)) .add
    (change (datePart part))

/-- The Monday on or before the day after a date, which numbers weeks that begin on Sunday. -/
def weekMonday (date : Formula) : Formula :=
  cast (call "DATE_TRUNC" [text "week", operation (cast date "DATE") .add (integer 1)]) "DATE"

/-- The seconds since a fixed moment, scaled to a unit and rounded down. -/
def epochUnits (scale : Option (FormulaOp × Int64)) (date : Formula) : Formula :=
  let seconds := extract "EPOCH" date
  call "FLOOR" [match scale with
    | none => seconds
    | some (op, factor) => operation seconds op (integer factor)]

/-- Postgres has no date finer than a microsecond. -/
def postgresDifference? : DateUnit → Option Formula
  | .year => some (change (datePart "year"))
  | .quarter => some (yearsAnd 4 "quarter")
  | .month => some (yearsAnd 12 "month")
  | .dayOfYear | .day => some (change fun date => cast date "DATE")
  | .week => some (operation (change weekMonday) .divide (integer 7))
  | .hour => some (change (epochUnits (some (.divide, 3600))))
  | .minute => some (change (epochUnits (some (.divide, 60))))
  | .second => some (change (epochUnits none))
  | .millisecond => some (change (epochUnits (some (.multiply, 1000))))
  | .microsecond => some (change (epochUnits (some (.multiply, 1000000))))
  | .nanosecond => none

/-! ## Oracle -/

/-- A date cut to a unit. -/
def truncated (format : String) (date : Formula) : Formula := call "TRUNC" [date, text format]

/-- The months between the beginnings of two units of whole months. -/
def monthsBetween (format : String) : Formula :=
  call "MONTHS_BETWEEN" [truncated format finish, truncated format start]

/-- The days between the beginnings of two units, scaled and rounded to units. -/
def scaledDays (format : String) (perDay : Int64) : Formula :=
  call "ROUND" [operation (change (truncated format)) .multiply (integer perDay)]

/-- The Monday on or before the day after a date, which numbers weeks that begin on Sunday. -/
def isoWeek (date : Formula) : Formula :=
  truncated "IW" (operation date .add (integer 1))

/-- The second of the minute of a date. -/
def secondOfMinute (date : Formula) : Formula :=
  call "TO_NUMBER" [call "TO_CHAR" [date, text "SS"]]

/-- Oracle's date arithmetic is exact to the second. -/
def oracleDifference? : DateUnit → Option Formula
  | .year => some (change (extract "YEAR"))
  | .quarter => some (operation (monthsBetween "Q") .divide (integer 3))
  | .month => some (monthsBetween "MM")
  | .dayOfYear | .day => some (change fun date => call "TRUNC" [date])
  | .week => some (operation (change isoWeek) .divide (integer 7))
  | .hour => some (scaledDays "HH24" 24)
  | .minute => some (scaledDays "MI" 1440)
  | .second =>
    some (operation (operation (scaledDays "MI" 1440) .multiply (integer 60)) .add
      (change secondOfMinute))
  | .millisecond | .microsecond | .nanosecond => none

/-! ## All dialects -/

/-- The distance of two dates in a unit, unless the dialect cannot express it. -/
def dateDifference? (d : Dialect) (unit : DateUnit) : Option Formula :=
  match d with
  | sqlServer => some (sqlServerDifference unit)
  | oracle => oracleDifference? unit
  | mySql => mySqlDifference? unit
  | postgres => postgresDifference? unit

end Dialect

end SqlTree
