import SqlTree.Paging.NumberedBlocks

/-!
# Expanding pages

Every paged query in a tree, at any depth, replaced by the blocks that number its rows. Inner
queries are expanded first; the blocks around a query depend only on the names of its columns,
which this does not change. A page without an order stays, as there are no blocks for it.

* `Select.expandPages`: a query with all its pages expanded;
* `Select.forDialect`: the query that a dialect writes, which is the expanded one where the dialect
  has no clause for pages; and so for the other trees.
-/

namespace SqlTree

/-- The query with its own page expanded, if it has an order. -/
def Select.expandOwnPage (q : Select) : Select :=
  match q.page with
  | none => q
  | some p => if q.orderBy.isEmpty then q else q.numberedBlocks p

mutual

/-- An expression with the pages of its queries expanded. -/
def Expr.expandPages : Expr → Expr
  | .field table name => .field table name
  | .constant c => .constant c
  | .parameter name => .parameter name
  | .raw sql => .raw sql
  | .function name args => .function name (Expr.expandPagesOfAll args)
  | .aggregate f none distinct => .aggregate f none distinct
  | .aggregate f (some arg) distinct => .aggregate f (some arg.expandPages) distinct
  | .case arms none => .case (CaseArm.expandPagesOfAll arms) none
  | .case arms (some e) => .case (CaseArm.expandPagesOfAll arms) (some e.expandPages)
  | .arithmetic left op right => .arithmetic left.expandPages op right.expandPages
  | .dateDiff unit start finish => .dateDiff unit start.expandPages finish.expandPages
  | .ifNull value fallback => .ifNull value.expandPages fallback.expandPages
  | .subquery q => .subquery q.expandPages
  | .star table => .star table
  | .rowNumber orderBy => .rowNumber orderBy
  | .null => .null

/-- Each expression of a list with its pages expanded. -/
def Expr.expandPagesOfAll : List Expr → List Expr
  | [] => []
  | e :: es => e.expandPages :: Expr.expandPagesOfAll es

/-- Each arm of a list with its pages expanded. -/
def CaseArm.expandPagesOfAll : List CaseArm → List CaseArm
  | [] => []
  | ⟨condition, result⟩ :: arms =>
    ⟨condition.expandPages, result.expandPages⟩ :: CaseArm.expandPagesOfAll arms

/-- A subquery with its pages expanded. -/
def Subquery.expandPages : Subquery → Subquery
  | .query q => .query q.expandPages
  | .text sql => .text sql

/-- A predicate with its pages expanded. -/
def Predicate.expandPages : Predicate → Predicate
  | .compare left op right => .compare left.expandPages op right.expandPages
  | .between e low high negated =>
    .between e.expandPages low.expandPages high.expandPages negated
  | .inList e values negated => .inList e.expandPages values negated
  | .inSubquery e s negated => .inSubquery e.expandPages s.expandPages negated
  | .isNull e negated => .isNull e.expandPages negated
  | .exists s negated => .exists s.expandPages negated
  | .raw sql => .raw sql

/-- Each predicate of a list with its pages expanded. -/
def Predicate.expandPagesOfAll : List Predicate → List Predicate
  | [] => []
  | p :: ps => p.expandPages :: Predicate.expandPagesOfAll ps

/-- A condition with its pages expanded. -/
def Condition.expandPages : Condition → Condition
  | ⟨connective, predicates, groups⟩ =>
    ⟨connective, Predicate.expandPagesOfAll predicates, Condition.expandPagesOfAll groups⟩

/-- Each condition of a list with its pages expanded. -/
def Condition.expandPagesOfAll : List Condition → List Condition
  | [] => []
  | g :: gs => g.expandPages :: Condition.expandPagesOfAll gs

/-- What rows are read from, with its pages expanded. -/
def Source.expandPages : Source → Source
  | .table name namespaceName => .table name namespaceName
  | .query q => .query q.expandPages
  | .queryText sql => .queryText sql
  | .aliasRef name => .aliasRef name

/-- A source with its pages expanded. -/
def TableRef.expandPages : TableRef → TableRef
  | ⟨source, aliasName⟩ => ⟨source.expandPages, aliasName⟩

/-- A join condition with its pages expanded. -/
def JoinCondition.expandPages : JoinCondition → JoinCondition
  | .fields left pairs => .fields left pairs
  | .condition c => .condition c.expandPages
  | .none => .none

/-- Each join of a list with its pages expanded. -/
def Join.expandPagesOfAll : List Join → List Join
  | [] => []
  | ⟨joinType, right, condition⟩ :: js =>
    ⟨joinType, right.expandPages, condition.expandPages⟩ :: Join.expandPagesOfAll js

/-- A base source and its joins with their pages expanded. -/
def FromClause.expandPages : FromClause → FromClause
  | ⟨none, joins⟩ => ⟨none, Join.expandPagesOfAll joins⟩
  | ⟨some base, joins⟩ => ⟨some base.expandPages, Join.expandPagesOfAll joins⟩

/-- Each output column of a list with its pages expanded. -/
def SelectItem.expandPagesOfAll : List SelectItem → List SelectItem
  | [] => []
  | ⟨e, aliasName⟩ :: is => ⟨e.expandPages, aliasName⟩ :: SelectItem.expandPagesOfAll is

/-- A query with all pages expanded, its own last. -/
def Select.expandPages : Select → Select
  | ⟨items, source, filter, groupBy, groupModifier, having, orderBy, distinct, top, page,
      tableSpace⟩ =>
    Select.expandOwnPage
      ⟨SelectItem.expandPagesOfAll items, source.expandPages, filter.expandPages, groupBy,
        groupModifier, having.expandPages, orderBy, distinct, top, page, tableSpace⟩

end

/-- An output column with its pages expanded. -/
def SelectItem.expandPages (i : SelectItem) : SelectItem := { i with expr := i.expr.expandPages }

/-! ## Trees as a dialect writes them -/

/-- Whether pages are expanded into blocks before a tree is written. -/
def Dialect.expandsPages (d : Dialect) : Bool := d.pagingStyle == .numberedBlocks

/-- The expression that a dialect writes. -/
def Expr.forDialect (d : Dialect) (e : Expr) : Expr :=
  if d.expandsPages then e.expandPages else e

/-- The predicate that a dialect writes. -/
def Predicate.forDialect (d : Dialect) (p : Predicate) : Predicate :=
  if d.expandsPages then p.expandPages else p

/-- The condition that a dialect writes. -/
def Condition.forDialect (d : Dialect) (c : Condition) : Condition :=
  if d.expandsPages then c.expandPages else c

/-- The source that a dialect writes. -/
def TableRef.forDialect (d : Dialect) (t : TableRef) : TableRef :=
  if d.expandsPages then t.expandPages else t

/-- The sources that a dialect writes. -/
def FromClause.forDialect (d : Dialect) (f : FromClause) : FromClause :=
  if d.expandsPages then f.expandPages else f

/-- The output column that a dialect writes. -/
def SelectItem.forDialect (d : Dialect) (i : SelectItem) : SelectItem :=
  if d.expandsPages then i.expandPages else i

/-- The query that a dialect writes. -/
def Select.forDialect (d : Dialect) (q : Select) : Select :=
  if d.expandsPages then q.expandPages else q

end SqlTree
