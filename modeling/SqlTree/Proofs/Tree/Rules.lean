import SqlTree.Proofs.Tree.Node

/-!
# The rules of nodes

What a node has to satisfy by itself, whatever stands below it. Only the conditions of joins depend
on more than the node and its direct parts: their left sides name sources that come before the join.

* `Node.KeepsRule`: the rule of a node of any kind;
* `Statement.KeepsRule`: the rule of a statement apart from its nodes.

Results:
* `Condition.isEmpty_eq_false_iff`: a condition is empty exactly if it has no predicate at any
  depth.
-/

namespace SqlTree

/-! ## Conditions with a predicate -/

/-- A condition has a predicate, of its own or in a group at any depth. -/
inductive Condition.HasPredicate : Condition → Prop where
  | own {c : Condition} {p : Predicate} (hp : p ∈ c.predicates) : HasPredicate c
  | inGroup {c g : Condition} (hg : g ∈ c.groups) (h : HasPredicate g) : HasPredicate c

mutual

/-- A condition is empty exactly if it has no predicate at any depth. -/
theorem Condition.isEmpty_eq_false_iff : ∀ c : Condition, c.isEmpty = false ↔ c.HasPredicate
  | ⟨connective, predicates, groups⟩ => by
    rw [Condition.isEmpty, Bool.and_eq_false_iff, Condition.allEmpty_eq_false_iff groups]
    constructor
    · rintro (h | ⟨g, hg, h⟩)
      · obtain ⟨p, hp⟩ := List.exists_mem_of_ne_nil predicates (by simpa using h)
        exact .own hp
      · exact .inGroup hg h
    · rintro (hp | ⟨hg, h⟩)
      · exact .inl (by simpa using List.ne_nil_of_mem hp)
      · exact .inr ⟨_, hg, h⟩

theorem Condition.allEmpty_eq_false_iff :
    ∀ gs : List Condition, Condition.allEmpty gs = false ↔ ∃ g ∈ gs, g.HasPredicate
  | [] => by simp [Condition.allEmpty]
  | g :: gs => by
    rw [Condition.allEmpty, Bool.and_eq_false_iff, Condition.isEmpty_eq_false_iff g,
      Condition.allEmpty_eq_false_iff gs]
    simp

end

/-! ## Nodes -/

/-- Numbers are finite, a case expression has arms and each of them a condition that is not empty,
and the rows of a window are numbered in an order. -/
def Expr.KeepsRule : Expr → Prop
  | .constant c => c.isFinite = true
  | .case arms _ => arms ≠ [] ∧ ∀ a ∈ arms, a.condition.HasPredicate
  | .rowNumber orderBy => orderBy ≠ []
  | _ => True

/-- The numbers in a list of values are finite. -/
def Predicate.KeepsRule : Predicate → Prop
  | .inList _ values _ => ∀ c ∈ values, c.isFinite = true
  | _ => True

/-- A table has a name, and a query that is a source an alias. -/
def TableRef.KeepsRule (t : TableRef) : Prop :=
  match t.source with
  | .table name _ => name ≠ ""
  | .query _ | .queryText _ => t.aliasName ≠ none
  | .aliasRef _ => True

/-- A cross join has no condition and any other join one that is not empty. Equal fields are at
least one pair, and their left side is among the names of earlier sources. -/
def JoinCondition.Fits (known : List String) (joinType : JoinType) : JoinCondition → Prop
  | .none => joinType = .cross
  | .fields left pairs => joinType ≠ .cross ∧ left ∈ known ∧ pairs ≠ []
  | .condition c => joinType ≠ .cross ∧ c.HasPredicate

/-- A joined source has an alias, and its condition fits the join. -/
structure Join.KeepsRule (known : List String) (j : Join) : Prop where
  hasAlias : j.right.aliasName ≠ none
  fits : j.condition.Fits known j.joinType

/-- The names by which other parts refer to sources. -/
def FromClause.names (f : FromClause) : List String := f.sources.filterMap TableRef.refName

/-- There is a base source, and each join keeps its rule after the base and the joins before it. -/
structure FromClause.KeepsRule (f : FromClause) : Prop where
  hasBase : f.base ≠ none
  joins : ∀ before j after, f.joins = before ++ j :: after →
    j.KeepsRule (FromClause.mk f.base before).names

/-- A page has rows and its query an order; a cube or rollup has group keys. -/
structure Select.KeepsRule (q : Select) : Prop where
  pageSize : ∀ p, q.page = some p → p.size ≠ 0
  pageOrder : q.page ≠ none → q.orderBy ≠ []
  groupKeys : q.groupModifier ≠ .none → q.groupBy ≠ []

/-- A node keeps the rule of its kind. -/
def Node.KeepsRule : Node → Prop
  | .expr e => e.KeepsRule
  | .predicate p => p.KeepsRule
  | .condition _ => True
  | .tableRef t => t.KeepsRule
  | .fromClause f => f.KeepsRule
  | .select q => q.KeepsRule

/-! ## Statements -/

/-- A union has members, none of which has an order or a page. -/
structure Union.KeepsRule (u : Union) : Prop where
  hasMembers : u.members ≠ []
  unordered : ∀ m ∈ u.members, m.query.orderBy = [] ∧ m.query.page = none

/-- A change names a table, sets at least one field, and sets no field twice. -/
structure SetsFields (table : String) (assignments : List Assignment) : Prop where
  hasTable : table ≠ ""
  hasFields : assignments ≠ []
  nodup : (assignments.map Assignment.field).Nodup

/-- A row has the table and the fields of the first row, and sets them to literals. -/
structure Insert.IsRowAfter (first i : Insert) : Prop where
  setsFields : SetsFields i.table i.assignments
  sameNamespace : i.namespaceName = first.namespaceName
  sameTable : i.table = first.table
  sameFields : ∀ f, f ∈ i.assignments.map Assignment.field ↔
    f ∈ first.assignments.map Assignment.field
  literals : ∀ a ∈ i.assignments, a.value.isLiteral = true

/-- An insert of several rows has rows, and all of them are like the first one. -/
def BulkInsert.KeepsRule (b : BulkInsert) : Prop :=
  ∃ first, b.rows.head? = some first ∧ ∀ i ∈ b.rows, first.IsRowAfter i

/-- A statement keeps the rule of its kind. -/
def Statement.KeepsRule : Statement → Prop
  | .select _ => True
  | .union u => u.KeepsRule
  | .insert i => SetsFields i.table i.assignments
  | .bulkInsert b => b.KeepsRule
  | .update u => SetsFields u.table u.assignments
  | .delete x => x.table ≠ ""

end SqlTree
