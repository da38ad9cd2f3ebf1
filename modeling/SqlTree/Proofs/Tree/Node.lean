import SqlTree.Syntax.Statement

/-!
# Nodes of a tree

The trees of a statement contain each other, so a property of whole statements speaks of nodes of
several kinds at once. A node is one tree of any kind, and its children are the trees right below
it.

Results:
* `Node.sizeOf_lt_of_mem_children`: a child is smaller than its node.
* `Node.induction`: what holds of a node when it holds of its children holds of every node.
* `Node.forall_contains`: what holds of a node and of all nodes in its children holds of all nodes in
  it.
-/

namespace SqlTree

/-- A tree of any kind that a statement is made of. -/
inductive Node where
  | expr (e : Expr)
  | predicate (p : Predicate)
  | condition (c : Condition)
  | tableRef (t : TableRef)
  | fromClause (f : FromClause)
  | select (q : Select)

theorem forall_mem_pair {α : Type} {P : α → Prop} {a b : α} :
    (∀ x ∈ [a, b], P x) ↔ P a ∧ P b := by
  simp

/-! ## Children -/

/-- The query of a subquery, unless it is a text. -/
def Subquery.nodes : Subquery → List Node
  | .query q => [.select q]
  | .text _ => []

/-- The query that is a source, if it is one. -/
def Source.nodes : Source → List Node
  | .query q => [.select q]
  | .table _ _ | .queryText _ | .aliasRef _ => []

/-- The condition of a join, unless it is on equal fields or without one. -/
def JoinCondition.nodes : JoinCondition → List Node
  | .condition c => [.condition c]
  | .fields _ _ | .none => []

/-- The condition and the result of an arm. -/
def CaseArm.nodes (a : CaseArm) : List Node := [.condition a.condition, .expr a.result]

/-- The source and the condition of a join. -/
def Join.nodes (j : Join) : List Node := .tableRef j.right :: j.condition.nodes

/-- The expressions right below an expression. -/
def Expr.nodes : Expr → List Node
  | .field _ _ | .constant _ | .parameter _ | .raw _ | .star _ | .rowNumber _ | .null => []
  | .function _ args => args.map .expr
  | .aggregate _ arg _ => arg.toList.map .expr
  | .case arms otherwise => arms.flatMap CaseArm.nodes ++ otherwise.toList.map .expr
  | .arithmetic left _ right => [.expr left, .expr right]
  | .dateDiff _ start finish => [.expr start, .expr finish]
  | .ifNull value fallback => [.expr value, .expr fallback]
  | .subquery q => [.select q]

/-- The trees right below a predicate. -/
def Predicate.nodes : Predicate → List Node
  | .compare left _ right => [.expr left, .expr right]
  | .between e low high _ => [.expr e, .expr low, .expr high]
  | .inList e _ _ => [.expr e]
  | .inSubquery e s _ => .expr e :: s.nodes
  | .isNull e _ => [.expr e]
  | .exists s _ => s.nodes
  | .raw _ => []

/-- The trees right below a node. -/
def Node.children : Node → List Node
  | .expr e => e.nodes
  | .predicate p => p.nodes
  | .condition c => c.predicates.map .predicate ++ c.groups.map .condition
  | .tableRef t => t.source.nodes
  | .fromClause f => f.base.toList.map .tableRef ++ f.joins.flatMap Join.nodes
  | .select q =>
    q.items.map (fun i => .expr i.expr) ++ [.fromClause q.source, .condition q.filter,
      .condition q.having]

/-- The constants of a node itself. -/
def Node.literals : Node → List Constant
  | .expr (.constant c) => [c]
  | .predicate (.inList _ values _) => values
  | _ => []

/-- The trees that a statement consists of. -/
def Statement.roots : Statement → List Node
  | .select q => [.select q]
  | .union u => u.members.map fun m => .select m.query
  | .insert i => i.assignments.map fun a => .expr a.value
  | .bulkInsert b => b.rows.flatMap fun i => i.assignments.map fun a => .expr a.value
  | .update u => u.assignments.map (fun a => .expr a.value) ++ [.condition u.filter]
  | .delete x => [.condition x.filter]

/-! ## Sizes -/

namespace Node

/-- The wrapped members of a list are no larger than the list. -/
theorem sizeOf_le_of_mem_map {α : Type} [SizeOf α] {f : α → Node} {l : List α} {m : Node}
    (hf : ∀ a, sizeOf (f a) = 1 + sizeOf a) (h : m ∈ l.map f) : sizeOf m ≤ sizeOf l := by
  obtain ⟨a, ha, rfl⟩ := List.mem_map.mp h
  have := List.sizeOf_lt_of_mem ha
  rw [hf]
  omega

theorem sizeOf_le_of_mem_toList {α : Type} [SizeOf α] {f : α → Node} {o : Option α} {m : Node}
    (hf : ∀ a, sizeOf (f a) = 1 + sizeOf a) (h : m ∈ o.toList.map f) : sizeOf m ≤ sizeOf o := by
  cases o with
  | none => simp at h
  | some a =>
    obtain rfl : m = f a := by simpa using h
    simp [hf]

theorem sizeOf_le_of_mem_flatMap {α : Type} [SizeOf α] {f : α → List Node} {l : List α} {m : Node}
    (hf : ∀ a, m ∈ f a → sizeOf m ≤ sizeOf a) (h : m ∈ l.flatMap f) : sizeOf m ≤ sizeOf l := by
  obtain ⟨a, ha, hm⟩ := List.mem_flatMap.mp h
  have := List.sizeOf_lt_of_mem ha
  have := hf a hm
  omega

theorem sizeOf_le_of_mem_subquery {m : Node} {s : Subquery} (h : m ∈ s.nodes) :
    sizeOf m ≤ sizeOf s := by
  cases s <;> simp_all [Subquery.nodes]

theorem sizeOf_le_of_mem_source {m : Node} {s : Source} (h : m ∈ s.nodes) :
    sizeOf m ≤ sizeOf s := by
  cases s <;> simp_all [Source.nodes]

theorem sizeOf_le_of_mem_arm {m : Node} {a : CaseArm} (h : m ∈ a.nodes) :
    sizeOf m ≤ sizeOf a := by
  obtain ⟨condition, result⟩ := a
  simp only [CaseArm.nodes, List.mem_cons, List.not_mem_nil, or_false] at h
  rcases h with rfl | rfl
  all_goals
    simp only [Node.expr.sizeOf_spec, Node.condition.sizeOf_spec, CaseArm.mk.sizeOf_spec]
    omega

theorem sizeOf_le_of_mem_joinCondition {m : Node} {c : JoinCondition} (h : m ∈ c.nodes) :
    sizeOf m ≤ sizeOf c := by
  cases c <;> simp_all [JoinCondition.nodes]

theorem sizeOf_le_of_mem_join {m : Node} {j : Join} (h : m ∈ j.nodes) : sizeOf m ≤ sizeOf j := by
  obtain ⟨joinType, right, condition⟩ := j
  rcases List.mem_cons.mp h with rfl | h
  · simp
    omega
  · have := sizeOf_le_of_mem_joinCondition h
    simp at this ⊢
    omega

theorem sizeOf_le_of_mem_expr {m : Node} {e : Expr} (h : m ∈ e.nodes) : sizeOf m ≤ sizeOf e := by
  cases e with
  | function name args =>
    have := sizeOf_le_of_mem_map (fun _ => rfl) h
    simp
    omega
  | aggregate f arg distinct =>
    have := sizeOf_le_of_mem_toList (fun _ => rfl) h
    simp
    omega
  | case arms otherwise =>
    rcases List.mem_append.mp h with h | h
    · have := sizeOf_le_of_mem_flatMap (fun _ => sizeOf_le_of_mem_arm) h
      simp
      omega
    · have := sizeOf_le_of_mem_toList (fun _ => rfl) h
      simp
      omega
  | arithmetic | dateDiff | ifNull =>
    simp only [Expr.nodes, List.mem_cons, List.not_mem_nil, or_false] at h
    rcases h with rfl | rfl <;> simp <;> omega
  | subquery q =>
    obtain rfl : m = .select q := by simpa [Expr.nodes] using h
    simp
  | _ => simp [Expr.nodes] at h

theorem sizeOf_le_of_mem_predicate {m : Node} {p : Predicate} (h : m ∈ p.nodes) :
    sizeOf m ≤ sizeOf p := by
  cases p with
  | inSubquery e s negated =>
    rcases List.mem_cons.mp h with rfl | h
    · simp
      omega
    · have := sizeOf_le_of_mem_subquery h
      simp
      omega
  | «exists» s negated =>
    have := sizeOf_le_of_mem_subquery h
    simp
    omega
  | compare | between | inList | isNull | raw =>
    simp only [Predicate.nodes, List.mem_cons, List.not_mem_nil, or_false] at h
    try rcases h with rfl | rfl | rfl
    all_goals simp <;> omega

/-- A child is smaller than its node. -/
theorem sizeOf_lt_of_mem_children {m n : Node} (h : m ∈ n.children) : sizeOf m < sizeOf n := by
  cases n with
  | expr e =>
    have := sizeOf_le_of_mem_expr h
    simp
    omega
  | predicate p =>
    have := sizeOf_le_of_mem_predicate h
    simp
    omega
  | condition c =>
    obtain ⟨connective, predicates, groups⟩ := c
    rcases List.mem_append.mp h with h | h
    all_goals
      have := sizeOf_le_of_mem_map (fun _ => rfl) h
      simp at this ⊢
      omega
  | tableRef t =>
    obtain ⟨source, aliasName⟩ := t
    have := sizeOf_le_of_mem_source h
    simp at this ⊢
    omega
  | fromClause f =>
    obtain ⟨base, joins⟩ := f
    rcases List.mem_append.mp h with h | h
    · have := sizeOf_le_of_mem_toList (fun _ => rfl) h
      simp at this ⊢
      omega
    · have := sizeOf_le_of_mem_flatMap (fun _ => sizeOf_le_of_mem_join) h
      simp at this ⊢
      omega
  | select q =>
    obtain ⟨items, source, filter, _, _, having, _, _, _, _, _⟩ := q
    simp only [children, List.mem_append, List.mem_map, List.mem_cons, List.not_mem_nil,
      or_false] at h
    rcases h with ⟨i, hi, rfl⟩ | rfl | rfl | rfl
    · have := List.sizeOf_lt_of_mem hi
      obtain ⟨e, a⟩ := i
      simp at this ⊢
      omega
    all_goals
      simp
      omega

/-! ## Induction -/

/-- What holds of a node when it holds of its children holds of every node. -/
theorem induction {P : Node → Prop} (step : ∀ n, (∀ m ∈ n.children, P m) → P n) (n : Node) : P n :=
  step n fun m _ => induction step m
termination_by sizeOf n
decreasing_by exact sizeOf_lt_of_mem_children (by assumption)

/-! ## Nodes anywhere below -/

/-- A node is another one or stands somewhere below it. -/
inductive Contains : Node → Node → Prop where
  | self (n : Node) : Contains n n
  | descend {n c m : Node} (hc : c ∈ n.children) (h : Contains c m) : Contains n m

variable {P : Node → Prop} {n : Node}

theorem forall_contains (hself : P n) (hchildren : ∀ c ∈ n.children, ∀ m, c.Contains m → P m) :
    ∀ m, n.Contains m → P m := by
  rintro m (_ | ⟨hc, h⟩)
  · exact hself
  · exact hchildren _ hc m h

theorem forall_contains_of_children_eq_nil (hself : P n) (h : n.children = []) :
    ∀ m, n.Contains m → P m := by
  apply forall_contains hself
  simp [h]

end Node

/-- A node stands somewhere in a statement. -/
def Statement.Contains (s : Statement) (n : Node) : Prop := ∃ r ∈ s.roots, r.Contains n

end SqlTree
