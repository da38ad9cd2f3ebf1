import SqlTree.Syntax.Statement

/-!
# Trees with other constants

A map of constants, applied to every constant of a tree and to nothing else: names, parameters, SQL
texts and row counts stay.

* `Statement.mapConstants`, `Select.mapConstants`, ...: a tree with its constants mapped.
-/

namespace SqlTree

mutual

/-- An expression with its constants mapped. -/
def Expr.mapConstants (f : Constant → Constant) : Expr → Expr
  | .field table name => .field table name
  | .constant c => .constant (f c)
  | .parameter name => .parameter name
  | .raw sql => .raw sql
  | .function name args => .function name (Expr.mapConstantsOfAll f args)
  | .aggregate h none distinct => .aggregate h none distinct
  | .aggregate h (some arg) distinct => .aggregate h (some (arg.mapConstants f)) distinct
  | .case arms none => .case (CaseArm.mapConstantsOfAll f arms) none
  | .case arms (some e) => .case (CaseArm.mapConstantsOfAll f arms) (some (e.mapConstants f))
  | .arithmetic left op right => .arithmetic (left.mapConstants f) op (right.mapConstants f)
  | .dateDiff unit start finish => .dateDiff unit (start.mapConstants f) (finish.mapConstants f)
  | .ifNull value fallback => .ifNull (value.mapConstants f) (fallback.mapConstants f)
  | .subquery q => .subquery (q.mapConstants f)
  | .star table => .star table
  | .rowNumber orderBy => .rowNumber orderBy
  | .null => .null

/-- Each expression of a list with its constants mapped. -/
def Expr.mapConstantsOfAll (f : Constant → Constant) : List Expr → List Expr
  | [] => []
  | e :: es => e.mapConstants f :: Expr.mapConstantsOfAll f es

/-- Each arm of a list with its constants mapped. -/
def CaseArm.mapConstantsOfAll (f : Constant → Constant) : List CaseArm → List CaseArm
  | [] => []
  | ⟨condition, result⟩ :: arms =>
    ⟨condition.mapConstants f, result.mapConstants f⟩ :: CaseArm.mapConstantsOfAll f arms

/-- A subquery with its constants mapped. -/
def Subquery.mapConstants (f : Constant → Constant) : Subquery → Subquery
  | .query q => .query (q.mapConstants f)
  | .text sql => .text sql

/-- A predicate with its constants mapped. -/
def Predicate.mapConstants (f : Constant → Constant) : Predicate → Predicate
  | .compare left op right => .compare (left.mapConstants f) op (right.mapConstants f)
  | .between e low high negated =>
    .between (e.mapConstants f) (low.mapConstants f) (high.mapConstants f) negated
  | .inList e values negated => .inList (e.mapConstants f) (values.map f) negated
  | .inSubquery e s negated => .inSubquery (e.mapConstants f) (s.mapConstants f) negated
  | .isNull e negated => .isNull (e.mapConstants f) negated
  | .exists s negated => .exists (s.mapConstants f) negated
  | .raw sql => .raw sql

/-- Each predicate of a list with its constants mapped. -/
def Predicate.mapConstantsOfAll (f : Constant → Constant) : List Predicate → List Predicate
  | [] => []
  | p :: ps => p.mapConstants f :: Predicate.mapConstantsOfAll f ps

/-- A condition with its constants mapped. -/
def Condition.mapConstants (f : Constant → Constant) : Condition → Condition
  | ⟨connective, predicates, groups⟩ =>
    ⟨connective, Predicate.mapConstantsOfAll f predicates, Condition.mapConstantsOfAll f groups⟩

/-- Each condition of a list with its constants mapped. -/
def Condition.mapConstantsOfAll (f : Constant → Constant) : List Condition → List Condition
  | [] => []
  | g :: gs => g.mapConstants f :: Condition.mapConstantsOfAll f gs

/-- What rows are read from, with its constants mapped. -/
def Source.mapConstants (f : Constant → Constant) : Source → Source
  | .table name namespaceName => .table name namespaceName
  | .query q => .query (q.mapConstants f)
  | .queryText sql => .queryText sql
  | .aliasRef name => .aliasRef name

/-- A source with its constants mapped. -/
def TableRef.mapConstants (f : Constant → Constant) : TableRef → TableRef
  | ⟨source, aliasName⟩ => ⟨source.mapConstants f, aliasName⟩

/-- A join condition with its constants mapped. -/
def JoinCondition.mapConstants (f : Constant → Constant) : JoinCondition → JoinCondition
  | .fields left pairs => .fields left pairs
  | .condition c => .condition (c.mapConstants f)
  | .none => .none

/-- Each join of a list with its constants mapped. -/
def Join.mapConstantsOfAll (f : Constant → Constant) : List Join → List Join
  | [] => []
  | ⟨joinType, right, condition⟩ :: js =>
    ⟨joinType, right.mapConstants f, condition.mapConstants f⟩ :: Join.mapConstantsOfAll f js

/-- A base source and its joins with their constants mapped. -/
def FromClause.mapConstants (f : Constant → Constant) : FromClause → FromClause
  | ⟨none, joins⟩ => ⟨none, Join.mapConstantsOfAll f joins⟩
  | ⟨some base, joins⟩ => ⟨some (base.mapConstants f), Join.mapConstantsOfAll f joins⟩

/-- Each output column of a list with its constants mapped. -/
def SelectItem.mapConstantsOfAll (f : Constant → Constant) : List SelectItem → List SelectItem
  | [] => []
  | ⟨e, aliasName⟩ :: is => ⟨e.mapConstants f, aliasName⟩ :: SelectItem.mapConstantsOfAll f is

/-- A query with its constants mapped. -/
def Select.mapConstants (f : Constant → Constant) : Select → Select
  | ⟨items, source, filter, groupBy, groupModifier, having, orderBy, distinct, top, page,
      tableSpace⟩ =>
    ⟨SelectItem.mapConstantsOfAll f items, source.mapConstants f, filter.mapConstants f, groupBy,
      groupModifier, having.mapConstants f, orderBy, distinct, top, page, tableSpace⟩

end

variable (f : Constant → Constant)

/-- An assignment with the constants of its value mapped. -/
def Assignment.mapConstants (a : Assignment) : Assignment :=
  { a with value := a.value.mapConstants f }

/-- A member of a union with its constants mapped. -/
def UnionMember.mapConstants (m : UnionMember) : UnionMember :=
  { m with query := m.query.mapConstants f }

/-- A new row with its constants mapped. -/
def Insert.mapConstants (i : Insert) : Insert :=
  { i with assignments := i.assignments.map (Assignment.mapConstants f) }

/-- A statement with its constants mapped. -/
def Statement.mapConstants : Statement → Statement
  | .select q => .select (q.mapConstants f)
  | .union u => .union ⟨u.members.map (UnionMember.mapConstants f)⟩
  | .insert i => .insert (i.mapConstants f)
  | .bulkInsert b => .bulkInsert ⟨b.rows.map (Insert.mapConstants f)⟩
  | .update u =>
    .update { u with
      assignments := u.assignments.map (Assignment.mapConstants f)
      filter := u.filter.mapConstants f }
  | .delete x => .delete { x with filter := x.filter.mapConstants f }

end SqlTree
