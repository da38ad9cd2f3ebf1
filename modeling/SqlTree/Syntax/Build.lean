import SqlTree.Constant.Reader
import SqlTree.Syntax.Statement

/-!
# Building statements

Functions that put trees together step by step: columns, literals and calls, predicates from two
expressions, and additions to the parts of a statement.
-/

namespace SqlTree

/-! ## Expressions -/

namespace Expr

/-- A column. -/
def column (name : String) : Expr := .field none name

/-- A column of a named table. -/
def columnOf (table name : String) : Expr := .field (some table) name

/-- An integer literal. -/
def int (n : Int64) : Expr := .constant (.number (.int n))

/-- A float literal; it has to be finite. -/
def float (x : Float) : Except Error Expr := (Constant.float x).map .constant

/-- A string literal. -/
def string (s : String) : Expr := .constant (.string s)

/-- A truth value. -/
def bool (b : Bool) : Expr := .constant (.boolean b)

/-- All columns. -/
def allColumns : Expr := .star none

/-- All columns of a named table. -/
def allColumnsOf (table : String) : Expr := .star (some table)

/-- An aggregate of an expression. -/
def aggregated (f : AggregateFunction) (e : Expr) : Expr := .aggregate f (some e) false

/-- The number of rows. -/
def countRows : Expr := .aggregate .count none false

/-- The number of different values. -/
def countDistinct (e : Expr) : Expr := .aggregate .count (some e) true

/-- A case expression with the given conditions and results. -/
def caseWhen (arms : List (Condition × Expr)) (otherwise : Option Expr) : Expr :=
  .case (arms.map fun (condition, result) => ⟨condition, result⟩) otherwise

/-! ## Predicates -/

/-- A comparison of two expressions. -/
def compare (op : CompareOp) (e other : Expr) : Predicate := .compare e op other

/-- Whether a value lies between two others, both included. -/
def between (e low high : Expr) (negated : Bool) : Predicate := .between e low high negated

/-- Whether a value is one of a list. -/
def inList (e : Expr) (values : List Constant) (negated : Bool) : Predicate :=
  .inList e values negated

/-- Whether a value is one that a query returns. -/
def inQuery (e : Expr) (q : Select) (negated : Bool) : Predicate :=
  .inSubquery e (.query q) negated

/-- Whether a value is null. -/
def isNull (e : Expr) (negated : Bool) : Predicate := .isNull e negated

/-- An expression as an output column under another name. -/
def renamed (e : Expr) (aliasName : String) : SelectItem :=
  { expr := e, aliasName := some aliasName }

/-- An expression as an output column. -/
def item (e : Expr) : SelectItem := { expr := e, aliasName := none }

end Expr

/-- Whether a query returns rows. -/
def Predicate.existsQuery (q : Select) (negated : Bool) : Predicate := .exists (.query q) negated

/-! ## Conditions -/

namespace Condition

/-- Predicates of which all hold. -/
def all (predicates : List Predicate) : Condition := ⟨.and, predicates, []⟩

/-- A condition with one more predicate. -/
def addPredicate (c : Condition) (p : Predicate) : Condition :=
  { c with predicates := c.predicates ++ [p] }

/-- A condition with one more group. -/
def addGroup (c g : Condition) : Condition := { c with groups := c.groups ++ [g] }

end Condition

/-! ## Sources -/

namespace TableRef

/-- A table. -/
def table (name : String) : TableRef := ⟨.table name none, none⟩

/-- A table of a namespace. -/
def tableIn (namespaceName name : String) : TableRef := ⟨.table name (some namespaceName), none⟩

/-- A query as a source. -/
def query (q : Select) (aliasName : String) : TableRef := ⟨.query q, some aliasName⟩

/-- The text of a query as a source. -/
def queryText (sql aliasName : String) : TableRef := ⟨.queryText sql, some aliasName⟩

/-- A name that is introduced elsewhere. -/
def aliasRef (name : String) : TableRef := ⟨.aliasRef name, none⟩

/-- A source under another name. -/
def renamed (t : TableRef) (aliasName : String) : TableRef := { t with aliasName := some aliasName }

end TableRef

namespace Join

/-- A source joined on equal fields. -/
def onFields (joinType : JoinType) (right : TableRef) (left : String)
    (pairs : List (String × String)) : Join :=
  ⟨joinType, right, .fields left pairs⟩

/-- A source joined on a condition. -/
def on (joinType : JoinType) (right : TableRef) (c : Condition) : Join :=
  ⟨joinType, right, .condition c⟩

/-- Every row joined with every row of a source. -/
def cross (right : TableRef) : Join := ⟨.cross, right, .none⟩

end Join

/-! ## Queries -/

namespace Select

/-- A query with another base source. -/
def withBase (q : Select) (t : TableRef) : Select :=
  { q with source := { q.source with base := some t } }

/-- A query with one more join. -/
def join (q : Select) (j : Join) : Select :=
  { q with source := { q.source with joins := q.source.joins ++ [j] } }

/-- A query with further output columns. -/
def addItems (q : Select) (items : List SelectItem) : Select := { q with items := q.items ++ items }

/-- A query with one more predicate for its rows. -/
def addFilter (q : Select) (p : Predicate) : Select := { q with filter := q.filter.addPredicate p }

/-- A query with one more group key. -/
def addGroupKey (q : Select) (k : GroupKey) : Select := { q with groupBy := q.groupBy ++ [k] }

/-- A query with one more sort key. -/
def addSortKey (q : Select) (k : SortKey) : Select := { q with orderBy := q.orderBy ++ [k] }

end Select

/-! ## Changes -/

/-- An insert with one more assignment. -/
def Insert.set (i : Insert) (field : String) (value : Expr) : Insert :=
  { i with assignments := i.assignments ++ [⟨field, value⟩] }

/-- An update with one more assignment. -/
def Update.set (u : Update) (field : String) (value : Expr) : Update :=
  { u with assignments := u.assignments ++ [⟨field, value⟩] }

/-- A union with one more member. -/
def Union.add (u : Union) (q : Select) (modifier : UnionModifier) : Union :=
  ⟨u.members ++ [⟨q, modifier⟩]⟩

end SqlTree
