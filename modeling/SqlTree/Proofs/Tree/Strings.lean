import SqlTree.Proofs.Tree.Expansion

/-!
# Trees with other strings

A map of strings, applied to every string constant of a tree and to nothing else: names, parameters
and SQL texts stay.

Results:
* `Condition.isEmpty_mapStrings`: a condition stays empty or not.
* `TableRef.refName_mapStrings`: a source keeps the name that others refer to it by.
-/

namespace SqlTree

/-- A constant with its string mapped, if it is one. -/
def Constant.mapString (f : String → String) : Constant → Constant
  | .string s => .string (f s)
  | c => c

mutual

/-- An expression with its strings mapped. -/
def Expr.mapStrings (f : String → String) : Expr → Expr
  | .field table name => .field table name
  | .constant c => .constant (c.mapString f)
  | .parameter name => .parameter name
  | .raw sql => .raw sql
  | .function name args => .function name (Expr.mapStringsOfAll f args)
  | .aggregate h none distinct => .aggregate h none distinct
  | .aggregate h (some arg) distinct => .aggregate h (some (arg.mapStrings f)) distinct
  | .case arms none => .case (CaseArm.mapStringsOfAll f arms) none
  | .case arms (some e) => .case (CaseArm.mapStringsOfAll f arms) (some (e.mapStrings f))
  | .arithmetic left op right => .arithmetic (left.mapStrings f) op (right.mapStrings f)
  | .dateDiff unit start finish => .dateDiff unit (start.mapStrings f) (finish.mapStrings f)
  | .ifNull value fallback => .ifNull (value.mapStrings f) (fallback.mapStrings f)
  | .subquery q => .subquery (q.mapStrings f)
  | .star table => .star table
  | .rowNumber orderBy => .rowNumber orderBy
  | .null => .null

/-- Each expression of a list with its strings mapped. -/
def Expr.mapStringsOfAll (f : String → String) : List Expr → List Expr
  | [] => []
  | e :: es => e.mapStrings f :: Expr.mapStringsOfAll f es

/-- Each arm of a list with its strings mapped. -/
def CaseArm.mapStringsOfAll (f : String → String) : List CaseArm → List CaseArm
  | [] => []
  | ⟨condition, result⟩ :: arms =>
    ⟨condition.mapStrings f, result.mapStrings f⟩ :: CaseArm.mapStringsOfAll f arms

/-- A subquery with its strings mapped. -/
def Subquery.mapStrings (f : String → String) : Subquery → Subquery
  | .query q => .query (q.mapStrings f)
  | .text sql => .text sql

/-- A predicate with its strings mapped. -/
def Predicate.mapStrings (f : String → String) : Predicate → Predicate
  | .compare left op right => .compare (left.mapStrings f) op (right.mapStrings f)
  | .between e low high negated =>
    .between (e.mapStrings f) (low.mapStrings f) (high.mapStrings f) negated
  | .inList e values negated => .inList (e.mapStrings f) (values.map (Constant.mapString f)) negated
  | .inSubquery e s negated => .inSubquery (e.mapStrings f) (s.mapStrings f) negated
  | .isNull e negated => .isNull (e.mapStrings f) negated
  | .exists s negated => .exists (s.mapStrings f) negated
  | .raw sql => .raw sql

/-- Each predicate of a list with its strings mapped. -/
def Predicate.mapStringsOfAll (f : String → String) : List Predicate → List Predicate
  | [] => []
  | p :: ps => p.mapStrings f :: Predicate.mapStringsOfAll f ps

/-- A condition with its strings mapped. -/
def Condition.mapStrings (f : String → String) : Condition → Condition
  | ⟨connective, predicates, groups⟩ =>
    ⟨connective, Predicate.mapStringsOfAll f predicates, Condition.mapStringsOfAll f groups⟩

/-- Each condition of a list with its strings mapped. -/
def Condition.mapStringsOfAll (f : String → String) : List Condition → List Condition
  | [] => []
  | g :: gs => g.mapStrings f :: Condition.mapStringsOfAll f gs

/-- What rows are read from, with its strings mapped. -/
def Source.mapStrings (f : String → String) : Source → Source
  | .table name namespaceName => .table name namespaceName
  | .query q => .query (q.mapStrings f)
  | .queryText sql => .queryText sql
  | .aliasRef name => .aliasRef name

/-- A source with its strings mapped. -/
def TableRef.mapStrings (f : String → String) : TableRef → TableRef
  | ⟨source, aliasName⟩ => ⟨source.mapStrings f, aliasName⟩

/-- A join condition with its strings mapped. -/
def JoinCondition.mapStrings (f : String → String) : JoinCondition → JoinCondition
  | .fields left pairs => .fields left pairs
  | .condition c => .condition (c.mapStrings f)
  | .none => .none

/-- Each join of a list with its strings mapped. -/
def Join.mapStringsOfAll (f : String → String) : List Join → List Join
  | [] => []
  | ⟨joinType, right, condition⟩ :: js =>
    ⟨joinType, right.mapStrings f, condition.mapStrings f⟩ :: Join.mapStringsOfAll f js

/-- A base source and its joins with their strings mapped. -/
def FromClause.mapStrings (f : String → String) : FromClause → FromClause
  | ⟨none, joins⟩ => ⟨none, Join.mapStringsOfAll f joins⟩
  | ⟨some base, joins⟩ => ⟨some (base.mapStrings f), Join.mapStringsOfAll f joins⟩

/-- Each output column of a list with its strings mapped. -/
def SelectItem.mapStringsOfAll (f : String → String) : List SelectItem → List SelectItem
  | [] => []
  | ⟨e, aliasName⟩ :: is => ⟨e.mapStrings f, aliasName⟩ :: SelectItem.mapStringsOfAll f is

/-- A query with its strings mapped. -/
def Select.mapStrings (f : String → String) : Select → Select
  | ⟨items, source, filter, groupBy, groupModifier, having, orderBy, distinct, top, page,
      tableSpace⟩ =>
    ⟨SelectItem.mapStringsOfAll f items, source.mapStrings f, filter.mapStrings f, groupBy,
      groupModifier, having.mapStrings f, orderBy, distinct, top, page, tableSpace⟩

end

variable (f : String → String)

/-- An arm with its strings mapped. -/
def CaseArm.mapStrings (a : CaseArm) : CaseArm := ⟨a.condition.mapStrings f, a.result.mapStrings f⟩

/-- A join with its strings mapped. -/
def Join.mapStrings (j : Join) : Join :=
  ⟨j.joinType, j.right.mapStrings f, j.condition.mapStrings f⟩

/-- An output column with its strings mapped. -/
def SelectItem.mapStrings (i : SelectItem) : SelectItem := { i with expr := i.expr.mapStrings f }

/-- An assignment with the strings of its value mapped. -/
def Assignment.mapStrings (a : Assignment) : Assignment := { a with value := a.value.mapStrings f }

/-- A member of a union with its strings mapped. -/
def UnionMember.mapStrings (m : UnionMember) : UnionMember :=
  { m with query := m.query.mapStrings f }

/-- A new row with its strings mapped. -/
def Insert.mapStrings (i : Insert) : Insert :=
  { i with assignments := i.assignments.map (Assignment.mapStrings f) }

/-- A statement with its strings mapped. -/
def Statement.mapStrings : Statement → Statement
  | .select q => .select (q.mapStrings f)
  | .union u => .union ⟨u.members.map (UnionMember.mapStrings f)⟩
  | .insert i => .insert (i.mapStrings f)
  | .bulkInsert b => .bulkInsert ⟨b.rows.map (Insert.mapStrings f)⟩
  | .update u =>
    .update { u with
      assignments := u.assignments.map (Assignment.mapStrings f)
      filter := u.filter.mapStrings f }
  | .delete x => .delete { x with filter := x.filter.mapStrings f }

/-! ## Lists -/

@[simp] theorem Expr.mapStringsOfAll_eq_map (es : List Expr) :
    Expr.mapStringsOfAll f es = es.map (Expr.mapStrings f) := by
  induction es with
  | nil => rfl
  | cons e es ih => rw [Expr.mapStringsOfAll, ih, List.map_cons]

@[simp] theorem CaseArm.mapStringsOfAll_eq_map (arms : List CaseArm) :
    CaseArm.mapStringsOfAll f arms = arms.map (CaseArm.mapStrings f) := by
  induction arms with
  | nil => rfl
  | cons a arms ih =>
    obtain ⟨condition, result⟩ := a
    rw [CaseArm.mapStringsOfAll, ih, List.map_cons, CaseArm.mapStrings]

@[simp] theorem Predicate.mapStringsOfAll_eq_map (ps : List Predicate) :
    Predicate.mapStringsOfAll f ps = ps.map (Predicate.mapStrings f) := by
  induction ps with
  | nil => rfl
  | cons p ps ih => rw [Predicate.mapStringsOfAll, ih, List.map_cons]

@[simp] theorem Condition.mapStringsOfAll_eq_map (gs : List Condition) :
    Condition.mapStringsOfAll f gs = gs.map (Condition.mapStrings f) := by
  induction gs with
  | nil => rfl
  | cons g gs ih => rw [Condition.mapStringsOfAll, ih, List.map_cons]

@[simp] theorem Join.mapStringsOfAll_eq_map (js : List Join) :
    Join.mapStringsOfAll f js = js.map (Join.mapStrings f) := by
  induction js with
  | nil => rfl
  | cons j js ih =>
    obtain ⟨joinType, right, condition⟩ := j
    rw [Join.mapStringsOfAll, ih, List.map_cons, Join.mapStrings]

@[simp] theorem SelectItem.mapStringsOfAll_eq_map (is : List SelectItem) :
    SelectItem.mapStringsOfAll f is = is.map (SelectItem.mapStrings f) := by
  induction is with
  | nil => rfl
  | cons i is ih =>
    obtain ⟨e, aliasName⟩ := i
    rw [SelectItem.mapStringsOfAll, ih, List.map_cons, SelectItem.mapStrings]

/-! ## What stays -/

mutual

/-- A condition is as empty as it was. -/
theorem Condition.isEmpty_mapStrings : ∀ c : Condition, (c.mapStrings f).isEmpty = c.isEmpty
  | ⟨connective, predicates, groups⟩ => by
    rw [Condition.mapStrings, Condition.isEmpty, Condition.isEmpty,
      Condition.allEmpty_mapStrings groups, Predicate.mapStringsOfAll_eq_map, List.isEmpty_map]

theorem Condition.allEmpty_mapStrings :
    ∀ gs : List Condition, Condition.allEmpty (Condition.mapStringsOfAll f gs) =
      Condition.allEmpty gs
  | [] => rfl
  | g :: gs => by
    rw [Condition.mapStringsOfAll, Condition.allEmpty, Condition.allEmpty,
      Condition.isEmpty_mapStrings g, Condition.allEmpty_mapStrings gs]

end

theorem TableRef.refName_mapStrings (t : TableRef) : (t.mapStrings f).refName = t.refName := by
  obtain ⟨source, aliasName⟩ := t
  cases source <;> rfl

theorem FromClause.isEmpty_mapStrings (s : FromClause) : (s.mapStrings f).isEmpty = s.isEmpty := by
  obtain ⟨base, joins⟩ := s
  cases base <;> rfl

end SqlTree
