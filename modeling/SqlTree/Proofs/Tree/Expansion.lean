import SqlTree.Paging.Expansion
import SqlTree.Proofs.Tree.Node

/-!
# Expanding pages, node by node

Expanding the pages of a tree expands those of its children, and changes nothing else except at a
query, which becomes its blocks afterwards.

Results:
* `Node.children_expandPages`: the children of an expanded node that is no query are the expanded
  children.
* `Select.expandPages_eq`: a query is expanded in its parts first and then itself.
* `Select.children_expandParts`: the children of a query with expanded parts are the expanded
  children.
* `Condition.isEmpty_expandPages`: a condition stays empty or not.
* `Select.forDialect_eq_expandParts`: what is expanded of a query without a page.
-/

namespace SqlTree

/-- An arm with its pages expanded. -/
def CaseArm.expandPages (a : CaseArm) : CaseArm := ⟨a.condition.expandPages, a.result.expandPages⟩

/-- A join with its pages expanded. -/
def Join.expandPages (j : Join) : Join :=
  ⟨j.joinType, j.right.expandPages, j.condition.expandPages⟩

/-- A query with the pages in its parts expanded, but not its own. -/
def Select.expandParts (q : Select) : Select :=
  { q with
    items := q.items.map SelectItem.expandPages
    source := q.source.expandPages
    filter := q.filter.expandPages
    having := q.having.expandPages }

/-- A node with its pages expanded. -/
def Node.expandPages : Node → Node
  | .expr e => .expr e.expandPages
  | .predicate p => .predicate p.expandPages
  | .condition c => .condition c.expandPages
  | .tableRef t => .tableRef t.expandPages
  | .fromClause f => .fromClause f.expandPages
  | .select q => .select q.expandPages

/-! ## Lists -/

@[simp] theorem Expr.expandPagesOfAll_eq_map (es : List Expr) :
    Expr.expandPagesOfAll es = es.map Expr.expandPages := by
  induction es with
  | nil => rfl
  | cons e es ih => rw [Expr.expandPagesOfAll, ih, List.map_cons]

@[simp] theorem CaseArm.expandPagesOfAll_eq_map (arms : List CaseArm) :
    CaseArm.expandPagesOfAll arms = arms.map CaseArm.expandPages := by
  induction arms with
  | nil => rfl
  | cons a arms ih =>
    obtain ⟨condition, result⟩ := a
    rw [CaseArm.expandPagesOfAll, ih, List.map_cons, CaseArm.expandPages]

@[simp] theorem Predicate.expandPagesOfAll_eq_map (ps : List Predicate) :
    Predicate.expandPagesOfAll ps = ps.map Predicate.expandPages := by
  induction ps with
  | nil => rfl
  | cons p ps ih => rw [Predicate.expandPagesOfAll, ih, List.map_cons]

@[simp] theorem Condition.expandPagesOfAll_eq_map (gs : List Condition) :
    Condition.expandPagesOfAll gs = gs.map Condition.expandPages := by
  induction gs with
  | nil => rfl
  | cons g gs ih => rw [Condition.expandPagesOfAll, ih, List.map_cons]

@[simp] theorem Join.expandPagesOfAll_eq_map (js : List Join) :
    Join.expandPagesOfAll js = js.map Join.expandPages := by
  induction js with
  | nil => rfl
  | cons j js ih =>
    obtain ⟨joinType, right, condition⟩ := j
    rw [Join.expandPagesOfAll, ih, List.map_cons, Join.expandPages]

@[simp] theorem SelectItem.expandPagesOfAll_eq_map (is : List SelectItem) :
    SelectItem.expandPagesOfAll is = is.map SelectItem.expandPages := by
  induction is with
  | nil => rfl
  | cons i is ih =>
    obtain ⟨e, aliasName⟩ := i
    rw [SelectItem.expandPagesOfAll, ih, List.map_cons, SelectItem.expandPages]

/-! ## Children -/

theorem Select.expandPages_eq (q : Select) : q.expandPages = q.expandParts.expandOwnPage := by
  cases q
  rw [Select.expandPages, SelectItem.expandPagesOfAll_eq_map]
  rfl

theorem Subquery.nodes_expandPages (s : Subquery) :
    s.expandPages.nodes = s.nodes.map Node.expandPages := by
  cases s <;> rfl

theorem Source.nodes_expandPages (s : Source) :
    s.expandPages.nodes = s.nodes.map Node.expandPages := by
  cases s <;> rfl

theorem JoinCondition.nodes_expandPages (c : JoinCondition) :
    c.expandPages.nodes = c.nodes.map Node.expandPages := by
  cases c <;> rfl

theorem Expr.nodes_expandPages (e : Expr) : e.expandPages.nodes = e.nodes.map Node.expandPages := by
  cases e with
  | function name args => simp [Expr.expandPages, Expr.nodes, Node.expandPages]
  | aggregate f arg distinct => cases arg <;> rfl
  | case arms otherwise =>
    cases otherwise <;>
      simp [Expr.expandPages, Expr.nodes, List.flatMap_map, List.map_flatMap, CaseArm.nodes,
        CaseArm.expandPages, Node.expandPages]
  | _ => rfl

theorem Predicate.nodes_expandPages (p : Predicate) :
    p.expandPages.nodes = p.nodes.map Node.expandPages := by
  cases p with
  | inSubquery e s negated =>
    rw [Predicate.expandPages, Predicate.nodes, Subquery.nodes_expandPages]
    rfl
  | «exists» s negated => exact Subquery.nodes_expandPages s
  | _ => rfl

/-- A query with expanded parts has the expanded children. -/
theorem Select.children_expandParts (q : Select) :
    (Node.select q.expandParts).children = (Node.select q).children.map Node.expandPages := by
  simp [Node.children, Select.expandParts, SelectItem.expandPages, Node.expandPages]

/-- An expanded node that is no query has the expanded children. -/
theorem Node.children_expandPages {n : Node} (h : ∀ q, n ≠ .select q) :
    n.expandPages.children = n.children.map Node.expandPages := by
  cases n with
  | expr e => exact Expr.nodes_expandPages e
  | predicate p => exact Predicate.nodes_expandPages p
  | condition c =>
    obtain ⟨connective, predicates, groups⟩ := c
    simp [Node.expandPages, Node.children, Condition.expandPages, Function.comp_def]
  | tableRef t =>
    obtain ⟨source, aliasName⟩ := t
    exact Source.nodes_expandPages source
  | fromClause f =>
    obtain ⟨base, joins⟩ := f
    cases base <;>
      simp [Node.expandPages, Node.children, FromClause.expandPages, List.flatMap_map,
        List.map_flatMap, Join.nodes, Join.expandPages, JoinCondition.nodes_expandPages]
  | select q => exact absurd rfl (h q)

/-! ## Emptiness -/

mutual

/-- A condition is as empty as it was. -/
theorem Condition.isEmpty_expandPages : ∀ c : Condition, c.expandPages.isEmpty = c.isEmpty
  | ⟨connective, predicates, groups⟩ => by
    rw [Condition.expandPages, Condition.isEmpty, Condition.isEmpty,
      Condition.allEmpty_expandPages groups, Predicate.expandPagesOfAll_eq_map, List.isEmpty_map]

theorem Condition.allEmpty_expandPages :
    ∀ gs : List Condition, Condition.allEmpty (Condition.expandPagesOfAll gs) =
      Condition.allEmpty gs
  | [] => rfl
  | g :: gs => by
    rw [Condition.expandPagesOfAll, Condition.allEmpty, Condition.allEmpty,
      Condition.isEmpty_expandPages g, Condition.allEmpty_expandPages gs]

end

theorem Condition.isEmpty_forDialect (d : Dialect) (c : Condition) :
    (c.forDialect d).isEmpty = c.isEmpty := by
  unfold Condition.forDialect
  split
  · exact c.isEmpty_expandPages
  · rfl

/-! ## Queries of which the own page is not expanded -/

theorem Select.expandPages_of_page_eq_none {q : Select} (hp : q.page = none) :
    q.expandPages = q.expandParts := by
  have hpage : q.expandParts.page = none := hp
  rw [Select.expandPages_eq, Select.expandOwnPage, hpage]

/-- A dialect expands the parts of a query of which it does not expand the own page, or nothing. -/
theorem Select.forDialect_eq_expandParts (d : Dialect) {q : Select}
    (h : d.expandsPages = true → q.page = none) :
    q.forDialect d = if d.expandsPages then q.expandParts else q := by
  unfold Select.forDialect
  split
  · rename_i hd
    exact Select.expandPages_of_page_eq_none (h hd)
  · rfl

/-- The conditions of such a query are written as the dialect has them. -/
theorem Select.conditions_forDialect (d : Dialect) {q : Select}
    (h : d.expandsPages = true → q.page = none) :
    (q.forDialect d).filter = q.filter.forDialect d ∧
      (q.forDialect d).having = q.having.forDialect d := by
  rw [Select.forDialect_eq_expandParts d h]
  unfold Condition.forDialect
  split <;> exact ⟨rfl, rfl⟩

end SqlTree
