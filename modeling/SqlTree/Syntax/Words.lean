/-!
# The choices in a statement

The closed sets of alternatives that statements are built from: operators, functions, date units,
join types and modifiers. Each has one name, by which it is stored; `ofName?` is the inverse of
`name`.
-/

namespace SqlTree

/-! ## Expressions and predicates -/

/-- How two values are compared. -/
inductive CompareOp where
  | equal
  | notEqual
  | greater
  | greaterOrEqual
  | less
  | lessOrEqual
  | like
  | notLike
  /-- True if some bit of the right value is set in the left one. -/
  | sharesBits
deriving DecidableEq, Repr

namespace CompareOp

/-- All comparisons. -/
def all : List CompareOp :=
  [equal, notEqual, greater, greaterOrEqual, less, lessOrEqual, like, notLike, sharesBits]

/-- The stored name of a comparison. -/
def name : CompareOp → String
  | equal => "equal"
  | notEqual => "not_equal"
  | greater => "greater"
  | greaterOrEqual => "greater_or_equal"
  | less => "less"
  | lessOrEqual => "less_or_equal"
  | like => "like"
  | notLike => "not_like"
  | sharesBits => "bitwise_and"

/-- The comparison of a name. -/
def ofName? (s : String) : Option CompareOp := all.find? fun x => x.name == s

theorem ofName?_name (x : CompareOp) : ofName? x.name = some x := by cases x <;> rfl

end CompareOp

/-- Functions over the rows of a group. -/
inductive AggregateFunction where
  | sum
  | count
  | avg
  | min
  | max
  /-- One on the rows that a cube or rollup adds, zero on the others. -/
  | grouping
deriving DecidableEq, Repr

namespace AggregateFunction

/-- All aggregate functions. -/
def all : List AggregateFunction := [sum, count, avg, min, max, grouping]

/-- The stored name of an aggregate function. -/
def name : AggregateFunction → String
  | sum => "sum"
  | count => "count"
  | avg => "avg"
  | min => "min"
  | max => "max"
  | grouping => "grouping"

/-- The name of an aggregate function in SQL. -/
def keyword : AggregateFunction → String
  | sum => "SUM"
  | count => "COUNT"
  | avg => "AVG"
  | min => "MIN"
  | max => "MAX"
  | grouping => "GROUPING"

/-- The aggregate function of a stored name. -/
def ofName? (s : String) : Option AggregateFunction := all.find? fun x => x.name == s

theorem ofName?_name (x : AggregateFunction) : ofName? x.name = some x := by cases x <;> rfl

end AggregateFunction

/-- The four operations of arithmetic. -/
inductive ArithmeticOp where
  | add
  | subtract
  | multiply
  | divide
deriving DecidableEq, Repr

namespace ArithmeticOp

/-- All operations. -/
def all : List ArithmeticOp := [add, subtract, multiply, divide]

/-- The stored name of an operation. -/
def name : ArithmeticOp → String
  | add => "add"
  | subtract => "subtract"
  | multiply => "multiply"
  | divide => "divide"

/-- The operation of a name. -/
def ofName? (s : String) : Option ArithmeticOp := all.find? fun x => x.name == s

theorem ofName?_name (x : ArithmeticOp) : ofName? x.name = some x := by cases x <;> rfl

end ArithmeticOp

/-- Units in which the distance of two dates is counted. -/
inductive DateUnit where
  | year
  | quarter
  | month
  | dayOfYear
  | day
  | week
  | hour
  | minute
  | second
  | millisecond
  | microsecond
  | nanosecond
deriving DecidableEq, Repr

namespace DateUnit

/-- All units, from the longest to the shortest. -/
def all : List DateUnit :=
  [year, quarter, month, dayOfYear, day, week, hour, minute, second, millisecond, microsecond,
    nanosecond]

/-- The stored name of a unit. -/
def name : DateUnit → String
  | year => "year"
  | quarter => "quarter"
  | month => "month"
  | dayOfYear => "dayofyear"
  | day => "day"
  | week => "week"
  | hour => "hour"
  | minute => "minute"
  | second => "second"
  | millisecond => "millisecond"
  | microsecond => "microsecond"
  | nanosecond => "nanosecond"

/-- The name of a unit in capitals. -/
def keyword : DateUnit → String
  | year => "YEAR"
  | quarter => "QUARTER"
  | month => "MONTH"
  | dayOfYear => "DAYOFYEAR"
  | day => "DAY"
  | week => "WEEK"
  | hour => "HOUR"
  | minute => "MINUTE"
  | second => "SECOND"
  | millisecond => "MILLISECOND"
  | microsecond => "MICROSECOND"
  | nanosecond => "NANOSECOND"

/-- The unit of a stored name. -/
def ofName? (s : String) : Option DateUnit := all.find? fun x => x.name == s

theorem ofName?_name (x : DateUnit) : ofName? x.name = some x := by cases x <;> rfl

/-- The short spellings of the units. -/
def abbreviations : List (String × DateUnit) :=
  [("yy", year), ("yyyy", year), ("qq", quarter), ("q", quarter), ("mm", month), ("m", month),
    ("dy", dayOfYear), ("y", dayOfYear), ("dd", day), ("d", day), ("wk", week), ("ww", week),
    ("hh", hour), ("mi", minute), ("n", minute), ("ss", second), ("s", second),
    ("ms", millisecond), ("mcs", microsecond), ("ns", nanosecond)]

/-- The unit of a full name or a short spelling, in any case of the ASCII letters. -/
def ofText? (s : String) : Option DateUnit :=
  ofName? s.toLower <|> abbreviations.lookup s.toLower

end DateUnit

/-! ## Conditions -/

/-- How the direct parts of a condition combine. -/
inductive Connective where
  | and
  | or
deriving DecidableEq, Repr

namespace Connective

/-- Both connectives. -/
def all : List Connective := [.and, .or]

/-- The stored name of a connective. -/
def name : Connective → String
  | .and => "and"
  | .or => "or"

/-- The connective of a name. -/
def ofName? (s : String) : Option Connective := all.find? fun x => x.name == s

theorem ofName?_name (x : Connective) : ofName? x.name = some x := by cases x <;> rfl

end Connective

/-! ## Sources -/

/-- The ways of joining a source. -/
inductive JoinType where
  | inner
  | left
  | right
  | full
  | cross
deriving DecidableEq, Repr

namespace JoinType

/-- All join types. -/
def all : List JoinType := [inner, left, right, full, cross]

/-- The stored name of a join type. -/
def name : JoinType → String
  | inner => "inner"
  | left => "left"
  | right => "right"
  | full => "full"
  | cross => "cross"

/-- The name of a join type at the start of a sentence. -/
def title : JoinType → String
  | inner => "Inner"
  | left => "Left"
  | right => "Right"
  | full => "Full"
  | cross => "Cross"

/-- The join type of a name. -/
def ofName? (s : String) : Option JoinType := all.find? fun x => x.name == s

theorem ofName?_name (x : JoinType) : ofName? x.name = some x := by cases x <;> rfl

end JoinType

/-! ## Ordering and grouping -/

/-- The direction of a sort key. -/
inductive SortDirection where
  | asc
  | desc
deriving DecidableEq, Repr

namespace SortDirection

/-- Both directions. -/
def all : List SortDirection := [asc, desc]

/-- The stored name of a direction. -/
def name : SortDirection → String
  | asc => "asc"
  | desc => "desc"

/-- The direction of a name. -/
def ofName? (s : String) : Option SortDirection := all.find? fun x => x.name == s

theorem ofName?_name (x : SortDirection) : ofName? x.name = some x := by cases x <;> rfl

end SortDirection

/-- The super-aggregate rows that are added to groups. -/
inductive GroupModifier where
  | none
  | cube
  | rollup
deriving DecidableEq, Repr

namespace GroupModifier

/-- All modifiers. -/
def all : List GroupModifier := [.none, .cube, .rollup]

/-- The stored name of a modifier. -/
def name : GroupModifier → String
  | .none => "none"
  | .cube => "cube"
  | .rollup => "rollup"

/-- The modifier of a name. -/
def ofName? (s : String) : Option GroupModifier := all.find? fun x => x.name == s

theorem ofName?_name (x : GroupModifier) : ofName? x.name = some x := by cases x <;> rfl

end GroupModifier

/-- Whether a union removes duplicate rows. -/
inductive UnionModifier where
  | distinct
  | all
deriving DecidableEq, Repr

namespace UnionModifier

/-- Both modifiers. -/
def choices : List UnionModifier := [.distinct, .all]

/-- The stored name of a modifier. -/
def name : UnionModifier → String
  | .distinct => "distinct"
  | .all => "all"

/-- The modifier of a name. -/
def ofName? (s : String) : Option UnionModifier := choices.find? fun x => x.name == s

theorem ofName?_name (x : UnionModifier) : ofName? x.name = some x := by cases x <;> rfl

end UnionModifier

/-- A field to sort by, with its direction. -/
structure SortKey where
  field : String
  table : Option String := none
  direction : SortDirection := .asc
deriving DecidableEq

/-- A field to group by. -/
structure GroupKey where
  field : String
  table : Option String := none
deriving DecidableEq

end SqlTree
