import SqlTree.Proofs.Tree.Rules
import SqlTree.Validity.Query

/-!
# Violations, node by node

The checks of a tree stop at the first violation; what they accept is said here without an order.
A node has no violation exactly if it keeps the rule of its kind and its children have none.

Results:
* `Join.violationsOfAll_eq_nil_iff`: the check of joins carries the names of earlier sources along,
  which comes to a rule for each join and the joins before it.
* `Node.violations_eq_nil_iff`: the rule of a node and the validity of its children.
* `Node.violations_eq_nil_iff_contains`: a tree is valid exactly if every node in it keeps its rule.
* `Node.violations_of_contains`: the trees below a valid tree are valid.
-/

namespace SqlTree

@[simp] theorem violationIf_eq_nil {condition : Prop} [Decidable condition] {v : Violation} :
    violationIf condition v = [] ↔ ¬condition := by
  simp [violationIf]

/-! ## Lists -/

@[simp] theorem Expr.violationsOfAll_eq_flatMap (es : List Expr) :
    Expr.violationsOfAll es = es.flatMap Expr.violations := by
  induction es with
  | nil => rfl
  | cons e es ih => rw [Expr.violationsOfAll, ih, List.flatMap_cons]

@[simp] theorem Predicate.violationsOfAll_eq_flatMap (ps : List Predicate) :
    Predicate.violationsOfAll ps = ps.flatMap Predicate.violations := by
  induction ps with
  | nil => rfl
  | cons p ps ih => rw [Predicate.violationsOfAll, ih, List.flatMap_cons]

@[simp] theorem Condition.violationsOfAll_eq_flatMap (gs : List Condition) :
    Condition.violationsOfAll gs = gs.flatMap Condition.violations := by
  induction gs with
  | nil => rfl
  | cons g gs ih => rw [Condition.violationsOfAll, ih, List.flatMap_cons]

@[simp] theorem SelectItem.violationsOfAll_eq_flatMap (is : List SelectItem) :
    SelectItem.violationsOfAll is = is.flatMap fun i => i.expr.violations := by
  induction is with
  | nil => rfl
  | cons i is ih =>
    obtain ⟨e, aliasName⟩ := i
    rw [SelectItem.violationsOfAll, ih, List.flatMap_cons]

/-! ## Nodes -/

namespace Node

/-- The violations in a node. -/
def violations : Node → List Violation
  | expr e => e.violations
  | predicate p => p.violations
  | condition c => c.violations
  | tableRef t => t.violations
  | fromClause f => f.violations
  | select q => q.violations

end Node

/-! ## Parts

A part of a node has no violation exactly if it keeps its rule and the nodes in it have none. -/

theorem Subquery.violations_eq_nil_iff (s : Subquery) :
    s.violations = [] ↔ ∀ c ∈ s.nodes, c.violations = [] := by
  cases s <;> simp [Subquery.violations, Subquery.nodes, Node.violations]

theorem Source.violations_eq_nil_iff (s : Source) :
    s.violations = [] ↔ ∀ c ∈ s.nodes, c.violations = [] := by
  cases s <;> simp [Source.violations, Source.nodes, Node.violations]

theorem JoinCondition.violations_eq_nil_iff (x : JoinCondition) :
    x.violations = [] ↔ ∀ c ∈ x.nodes, c.violations = [] := by
  cases x <;> simp [JoinCondition.violations, JoinCondition.nodes, Node.violations]

theorem Constant.violations_eq_nil_iff (c : Constant) :
    c.violations = [] ↔ c.isFinite = true := by
  simp [Constant.violations]

theorem CaseArm.violationsOfAll_eq_nil_iff (arms : List CaseArm) :
    CaseArm.violationsOfAll arms = [] ↔
      (∀ a ∈ arms, a.condition.HasPredicate) ∧
        ∀ c ∈ arms.flatMap CaseArm.nodes, c.violations = [] := by
  induction arms with
  | nil => simp [CaseArm.violationsOfAll]
  | cons a arms ih =>
    obtain ⟨condition, result⟩ := a
    have hempty : violationIf (condition.isEmpty = true) .caseConditionEmpty = [] ↔
        condition.HasPredicate := by
      rw [violationIf_eq_nil, Bool.not_eq_true, Condition.isEmpty_eq_false_iff]
    simp only [CaseArm.violationsOfAll, List.append_eq_nil_iff, hempty, ih, List.forall_mem_cons,
      List.flatMap_cons, List.forall_mem_append, CaseArm.nodes, Node.violations]
    grind

/-- The rule that a join condition breaks by itself is that it has to fit the join. -/
theorem joinViolations_eq_nil_iff (known : List String) (joinType : JoinType)
    (condition : JoinCondition) :
    joinViolations known joinType condition = [] ↔ condition.Fits known joinType := by
  cases condition with
  | none => cases joinType <;> simp [joinViolations, JoinCondition.Fits]
  | fields left pairs => cases joinType <;> simp [joinViolations, JoinCondition.Fits]
  | condition c =>
    cases joinType <;>
      simp [joinViolations, JoinCondition.Fits, ← Condition.isEmpty_eq_false_iff]

/-- What holds of each member after the members in front of it holds of the first member alone, and
of each other one after the first and those in between. -/
theorem forall_split_cons_iff {α : Type} {P : List α → α → Prop} {x : α} {xs : List α} :
    (∀ before y after, x :: xs = before ++ y :: after → P before y) ↔
      P [] x ∧ ∀ before y after, xs = before ++ y :: after → P (x :: before) y := by
  constructor
  · intro h
    exact ⟨h [] x xs rfl, fun before y after hxs => h (x :: before) y after (by rw [hxs]; rfl)⟩
  · rintro ⟨hx, hxs⟩ before y after h
    cases before with
    | nil =>
      obtain ⟨rfl, -⟩ := List.cons_eq_cons.mp h
      exact hx
    | cons z before =>
      obtain ⟨rfl, hrest⟩ := List.cons_eq_cons.mp h
      exact hxs before y after hrest

theorem Join.keepsRule_iff {known : List String} {j : Join} :
    j.KeepsRule known ↔ violationIf (j.right.aliasName = none) (.aliasMissing .joinTarget) = [] ∧
      joinViolations known j.joinType j.condition = [] := by
  rw [violationIf_eq_nil, joinViolations_eq_nil_iff]
  exact ⟨fun h => ⟨h.hasAlias, h.fits⟩, fun h => ⟨h.1, h.2⟩⟩

/-- Each join comes after the sources with names in `known` and after the joins in front of it. -/
theorem Join.violationsOfAll_eq_nil_iff (joins : List Join) (known : List String) :
    Join.violationsOfAll joins known = [] ↔
      (∀ before j after, joins = before ++ j :: after →
        j.KeepsRule (known ++ before.filterMap fun j => j.right.refName)) ∧
        ∀ c ∈ joins.flatMap Join.nodes, c.violations = [] := by
  induction joins generalizing known with
  | nil => simp [Join.violationsOfAll]
  | cons j joins ih =>
    have hknown : ∀ before : List Join,
        known ++ (j :: before).filterMap (fun j => j.right.refName) =
          (known ++ j.right.refName.toList) ++ before.filterMap fun j => j.right.refName := by
      intro before
      cases h : j.right.refName <;> simp [h]
    rw [forall_split_cons_iff]
    simp only [hknown, List.filterMap_nil, List.append_nil, Join.keepsRule_iff (j := j)]
    obtain ⟨joinType, right, condition⟩ := j
    simp only [Join.violationsOfAll, List.append_eq_nil_iff, ih, List.flatMap_cons,
      List.forall_mem_append, Join.nodes, List.forall_mem_cons, Node.violations,
      JoinCondition.violations_eq_nil_iff]
    grind

/-! ## Nodes -/

theorem TableRef.violations_eq_nil_iff (t : TableRef) :
    t.violations = [] ↔ t.KeepsRule ∧ ∀ c ∈ t.source.nodes, c.violations = [] := by
  obtain ⟨source, aliasName⟩ := t
  rw [TableRef.violations, List.append_eq_nil_iff, Source.violations_eq_nil_iff]
  cases source <;> simp [sourceViolations, TableRef.KeepsRule]

theorem FromClause.violations_eq_nil_iff (f : FromClause) :
    f.violations = [] ↔
      f.KeepsRule ∧ ∀ c ∈ (Node.fromClause f).children, c.violations = [] := by
  obtain ⟨base, joins⟩ := f
  cases base with
  | none =>
    have hbase : ¬FromClause.KeepsRule ⟨none, joins⟩ := fun h => h.hasBase rfl
    simp [FromClause.violations, hbase]
  | some base =>
    have hnames : ∀ before : List Join, (FromClause.mk (some base) before).names =
        base.refName.toList ++ before.filterMap fun j => j.right.refName := by
      intro before
      have hjoined : (before.map Join.right).filterMap TableRef.refName =
          before.filterMap fun j => j.right.refName := List.filterMap_map ..
      rw [FromClause.names, FromClause.sources, List.filterMap_append, hjoined]
      cases h : base.refName <;> simp [h]
    have hrule : FromClause.KeepsRule ⟨some base, joins⟩ ↔
        ∀ before j after, joins = before ++ j :: after →
          j.KeepsRule (base.refName.toList ++ before.filterMap fun j => j.right.refName) := by
      simp only [← hnames]
      exact ⟨fun h => h.joins, fun h => ⟨by simp, h⟩⟩
    rw [FromClause.violations, List.append_eq_nil_iff, Join.violationsOfAll_eq_nil_iff, hrule]
    simp only [Node.children, Option.toList_some, List.map_cons, List.map_nil,
      List.forall_mem_append, List.forall_mem_cons, Node.violations]
    grind

theorem Expr.violations_eq_nil_iff (e : Expr) :
    e.violations = [] ↔ e.KeepsRule ∧ ∀ c ∈ e.nodes, c.violations = [] := by
  cases e with
  | constant c =>
    simp [Expr.violations, Expr.KeepsRule, Expr.nodes, Constant.violations_eq_nil_iff]
  | aggregate f arg distinct =>
    cases arg <;> simp [Expr.violations, Expr.KeepsRule, Expr.nodes, Node.violations]
  | case arms otherwise =>
    have harms : violationIf (arms.isEmpty = true) .caseWithoutArms = [] ↔ arms ≠ [] := by simp
    cases otherwise <;>
      simp only [Expr.violations, Expr.KeepsRule, Expr.nodes, List.append_eq_nil_iff, harms,
        CaseArm.violationsOfAll_eq_nil_iff, List.forall_mem_append, Option.toList_none,
        Option.toList_some, List.map_nil, List.map_cons, List.forall_mem_cons,
        Node.violations] <;>
      grind
  | _ => simp [Expr.violations, Expr.KeepsRule, Expr.nodes, Node.violations]

theorem Predicate.violations_eq_nil_iff (p : Predicate) :
    p.violations = [] ↔ p.KeepsRule ∧ ∀ c ∈ p.nodes, c.violations = [] := by
  cases p with
  | inList e values negated =>
    simp [Predicate.violations, Predicate.KeepsRule, Predicate.nodes, Node.violations,
      Constant.violations_eq_nil_iff, and_comm]
  | inSubquery e s negated =>
    simp [Predicate.violations, Predicate.KeepsRule, Predicate.nodes, Node.violations,
      Subquery.violations_eq_nil_iff]
  | «exists» s negated =>
    simp [Predicate.violations, Predicate.KeepsRule, Predicate.nodes,
      Subquery.violations_eq_nil_iff]
  | _ => simp [Predicate.violations, Predicate.KeepsRule, Predicate.nodes, Node.violations]

theorem Select.keepsRule_iff (q : Select) :
    q.KeepsRule ↔ pageViolations q.page q.orderBy = [] ∧
      groupViolations q.groupModifier q.groupBy = [] := by
  have hpage : pageViolations q.page q.orderBy = [] ↔
      (∀ p, q.page = some p → p.size ≠ 0) ∧ (q.page ≠ none → q.orderBy ≠ []) := by
    cases q.page <;> simp [pageViolations]
  have hgroup : groupViolations q.groupModifier q.groupBy = [] ↔
      (q.groupModifier ≠ .none → q.groupBy ≠ []) := by
    simp [groupViolations]
  rw [hpage, hgroup]
  exact ⟨fun h => ⟨⟨h.pageSize, h.pageOrder⟩, h.groupKeys⟩, fun h => ⟨h.1.1, h.1.2, h.2⟩⟩

theorem Select.violations_eq_nil_iff (q : Select) :
    q.violations = [] ↔ q.KeepsRule ∧ ∀ c ∈ (Node.select q).children, c.violations = [] := by
  rw [Select.keepsRule_iff]
  cases q
  simp only [Select.violations, SelectItem.violationsOfAll_eq_flatMap, List.append_eq_nil_iff,
    List.flatMap_eq_nil_iff, Node.children, List.forall_mem_append, List.forall_mem_map,
    List.forall_mem_cons, Node.violations]
  grind

/-- A node has no violation exactly if it keeps its rule and its children have none. -/
theorem Node.violations_eq_nil_iff (n : Node) :
    n.violations = [] ↔ n.KeepsRule ∧ ∀ c ∈ n.children, c.violations = [] := by
  cases n with
  | expr e => exact e.violations_eq_nil_iff
  | predicate p => exact p.violations_eq_nil_iff
  | condition g =>
    obtain ⟨connective, predicates, groups⟩ := g
    simp only [Node.violations, Condition.violations, Node.KeepsRule, Node.children,
      Predicate.violationsOfAll_eq_flatMap, Condition.violationsOfAll_eq_flatMap,
      List.append_eq_nil_iff, List.flatMap_eq_nil_iff, List.forall_mem_append,
      List.forall_mem_map, true_and]
  | tableRef t => exact t.violations_eq_nil_iff
  | fromClause f => exact f.violations_eq_nil_iff
  | select q => exact q.violations_eq_nil_iff

namespace Node

/-- The children of a valid node are valid. -/
theorem violations_of_mem_children {n c : Node} (h : n.violations = []) (hc : c ∈ n.children) :
    c.violations = [] :=
  (n.violations_eq_nil_iff.mp h).2 c hc

/-- The trees below a valid tree are valid. -/
theorem violations_of_contains {n m : Node} (hm : n.Contains m) (h : n.violations = []) :
    m.violations = [] := by
  induction hm with
  | self n => exact h
  | descend hc _ ih => exact ih (violations_of_mem_children h hc)

/-- A tree has no violation exactly if every node in it keeps its rule. -/
theorem violations_eq_nil_iff_contains (n : Node) :
    n.violations = [] ↔ ∀ m, n.Contains m → m.KeepsRule := by
  constructor
  · intro h m hm
    exact (m.violations_eq_nil_iff.mp (violations_of_contains hm h)).1
  · intro h
    induction n using Node.induction with
    | step n ih =>
      refine n.violations_eq_nil_iff.mpr ⟨h n (.self n), fun c hc => ?_⟩
      exact ih c hc fun m hm => h m (.descend hc hm)

end Node

/-- A valid query with a page has an order. -/
theorem Select.orderBy_ne_nil {q : Select} {p : Page} (h : q.violations = [])
    (hp : q.page = some p) : q.orderBy ≠ [] :=
  (q.violations_eq_nil_iff.mp h).1.pageOrder (by simp [hp])

end SqlTree
