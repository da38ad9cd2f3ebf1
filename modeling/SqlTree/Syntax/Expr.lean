import SqlTree.Constant.Basic
import SqlTree.Syntax.Page
import SqlTree.Syntax.Words

/-!
# Expressions, conditions and queries

The trees of expressions, predicates, sources and queries. They contain each other: an expression
may be a subquery, a condition may ask whether a query has rows, and a source may be a query.

* `Expr`: a value computed from a row;
* `Predicate`, `Condition`: a test of a row, and a tree of tests under AND and OR;
* `TableRef`, `Join`, `FromClause`: where rows come from;
* `Select`: a query.
-/

namespace SqlTree

mutual

/-- A value computed from a row or a group of rows. -/
inductive Expr where
  /-- A column, possibly of a named table. -/
  | field (table : Option String) (name : String)
  | constant (c : Constant)
  /-- A named parameter. -/
  | parameter (name : String)
  /-- SQL text that is written as it is. -/
  | raw (sql : String)
  | function (name : String) (args : List Expr)
  /-- An aggregate; without an argument it is over all rows. -/
  | aggregate (f : AggregateFunction) (arg : Option Expr) (distinct : Bool)
  | case (arms : List CaseArm) (otherwise : Option Expr)
  | arithmetic (left : Expr) (op : ArithmeticOp) (right : Expr)
  /-- The number of boundaries of a unit that lie between two dates; weeks start on Sunday. -/
  | dateDiff (unit : DateUnit) (start finish : Expr)
  /-- The value or, where it is null, the fallback. -/
  | ifNull (value fallback : Expr)
  /-- The single value of a query. -/
  | subquery (q : Select)
  /-- All columns, possibly of a named table. -/
  | star (table : Option String)
  /-- The number of a row in an order. -/
  | rowNumber (orderBy : List SortKey)
  | null

/-- A condition and the value of a case expression where it is the first that holds. -/
structure CaseArm where
  condition : Condition
  result : Expr

/-- A query, or the text of one. -/
inductive Subquery where
  | query (q : Select)
  | text (sql : String)

/-- A test of a row. -/
inductive Predicate where
  | compare (left : Expr) (op : CompareOp) (right : Expr)
  | between (e low high : Expr) (negated : Bool)
  | inList (e : Expr) (values : List Constant) (negated : Bool)
  | inSubquery (e : Expr) (s : Subquery) (negated : Bool)
  | isNull (e : Expr) (negated : Bool)
  | exists (s : Subquery) (negated : Bool)
  /-- SQL text that is written as it is. -/
  | raw (sql : String)

/-- Predicates, followed by groups of their own, all joined by one connective. -/
structure Condition where
  connective : Connective
  predicates : List Predicate
  groups : List Condition

/-- What rows are read from. -/
inductive Source where
  | table (name : String) (namespaceName : Option String)
  | query (q : Select)
  /-- The text of a query, written in parentheses. -/
  | queryText (sql : String)
  /-- A name that is introduced elsewhere. -/
  | aliasRef (name : String)

/-- A source and the name it goes by. -/
structure TableRef where
  source : Source
  aliasName : Option String

/-- How joined rows match. -/
inductive JoinCondition where
  /-- Equal fields of a named earlier source and of the joined one. -/
  | fields (left : String) (pairs : List (String × String))
  | condition (c : Condition)
  | none

/-- A source joined to the ones before it. -/
structure Join where
  joinType : JoinType
  right : TableRef
  condition : JoinCondition

/-- A base source and the sources joined to it. -/
structure FromClause where
  base : Option TableRef
  joins : List Join

/-- An output column of a query, possibly renamed. -/
structure SelectItem where
  expr : Expr
  aliasName : Option String

/-- A query. -/
structure Select where
  /-- The output columns; none stands for all columns. -/
  items : List SelectItem
  source : FromClause
  filter : Condition
  groupBy : List GroupKey
  groupModifier : GroupModifier
  having : Condition
  orderBy : List SortKey
  distinct : Bool
  /-- The most rows that the query returns. -/
  top : Option UInt64
  page : Option Page
  /-- The namespace of tables that name none. -/
  tableSpace : Option String

end

/-! ## Empty trees -/

/-- The condition without predicates. -/
def Condition.empty : Condition := ⟨.and, [], []⟩

/-- The query without any part. -/
def Select.empty : Select :=
  { items := [], source := ⟨none, []⟩, filter := .empty, groupBy := [], groupModifier := .none,
    having := .empty, orderBy := [], distinct := false, top := none, page := none,
    tableSpace := none }

instance : Inhabited Expr := ⟨.null⟩
instance : Inhabited Condition := ⟨.empty⟩
instance : Inhabited Select := ⟨.empty⟩

/-! ## Names -/

/-- The name that an expression gives to its output column. -/
def Expr.outputName : Expr → Option String
  | .field _ name => some name
  | _ => none

/-- Whether an expression is a constant or null. -/
def Expr.isLiteral : Expr → Bool
  | .constant _ | .null => true
  | _ => false

/-- Whether an expression stands for all columns. -/
def Expr.isStar : Expr → Bool
  | .star _ => true
  | _ => false

/-- The name of an output column: its alias or else the name of its field. -/
def SelectItem.outputName (i : SelectItem) : Option String := i.aliasName <|> i.expr.outputName

/-- The name by which other parts refer to a source: its alias or else its own name. -/
def TableRef.refName (t : TableRef) : Option String :=
  t.aliasName <|> match t.source with
    | .table name _ | .aliasRef name => some name
    | .query _ | .queryText _ => none

/-- Whether a source is a query. -/
def TableRef.isDerived (t : TableRef) : Bool :=
  match t.source with
  | .query _ | .queryText _ => true
  | .table .. | .aliasRef _ => false

/-- Whether there is no base source. -/
def FromClause.isEmpty (f : FromClause) : Bool := f.base.isNone

/-- All sources, the base first. -/
def FromClause.sources (f : FromClause) : List TableRef := f.base.toList ++ f.joins.map Join.right

/-! ## Emptiness of conditions -/

mutual

/-- Whether a condition has no predicate, at any depth. -/
def Condition.isEmpty : Condition → Bool
  | ⟨_, predicates, groups⟩ => predicates.isEmpty && Condition.allEmpty groups

/-- Whether no condition of a list has a predicate. -/
def Condition.allEmpty : List Condition → Bool
  | [] => true
  | c :: cs => c.isEmpty && Condition.allEmpty cs

end

end SqlTree
