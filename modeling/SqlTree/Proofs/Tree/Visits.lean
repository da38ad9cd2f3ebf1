import SqlTree.Error
import SqlTree.Proofs.Tree.Expansion
import SqlTree.Proofs.Tree.Measures

/-!
# Visits

To visit a tree is to visit the trees right below it, and to put what comes of them in their places.
A visit has no result if it fails below, or if it is given up because it goes too deep.

* `Visitor`: what is done to a tree of each kind.
* `Expr.visit`, `Select.visit` and so on: one level of a visit.
* `Node.KeepsPage`: a page is left when the pages of a tree are expanded.
* `Settled`: a visit comes to an expected result or, if it gets stuck, to an error.
* `Visitor.Settles`: a visitor comes to the expanded tree, unless that keeps a page.

Results:
* `Node.keepsPage_iff`: a page that is left is left in one of the children, unless it is that of the
  tree itself.
* `Settled.bind`, `Settled.mapM`: a visit in several steps gets stuck if one of them does.
* `Expr.settled_visit`, `Select.settled_visit` and so on: what a level of a visit comes to, by what
  the visitor comes to below.
-/

namespace SqlTree

/-- Why a visit has no result. -/
inductive Stop where
  /-- The visit would have gone deeper than it was allowed to. -/
  | tooDeep
  | failed (e : Error)

/-- What is done to a tree of each kind. -/
structure Visitor where
  expr : Expr → Except Stop Expr
  predicate : Predicate → Except Stop Predicate
  condition : Condition → Except Stop Condition
  tableRef : TableRef → Except Stop TableRef
  fromClause : FromClause → Except Stop FromClause
  select : Select → Except Stop Select

/-! ## One level -/

section Visits

variable (v : Visitor)

def Subquery.visit : Subquery → Except Stop Subquery
  | .query q => (v.select q).map .query
  | .text sql => .ok (.text sql)

def CaseArm.visit (a : CaseArm) : Except Stop CaseArm := do
  return ⟨← v.condition a.condition, ← v.expr a.result⟩

def Expr.visit : Expr → Except Stop Expr
  | .function name args => (args.mapM v.expr).map (.function name)
  | .aggregate f (some arg) distinct => (v.expr arg).map fun arg => .aggregate f (some arg) distinct
  | .case arms none => (arms.mapM (CaseArm.visit v)).map (.case · none)
  | .case arms (some e) => do return .case (← arms.mapM (CaseArm.visit v)) (some (← v.expr e))
  | .arithmetic left op right => do return .arithmetic (← v.expr left) op (← v.expr right)
  | .dateDiff unit start finish => do return .dateDiff unit (← v.expr start) (← v.expr finish)
  | .ifNull value fallback => do return .ifNull (← v.expr value) (← v.expr fallback)
  | .subquery q => (v.select q).map .subquery
  | e => .ok e

def Predicate.visit : Predicate → Except Stop Predicate
  | .compare left op right => do return .compare (← v.expr left) op (← v.expr right)
  | .between e low high negated => do
    return .between (← v.expr e) (← v.expr low) (← v.expr high) negated
  | .inList e values negated => (v.expr e).map (.inList · values negated)
  | .inSubquery e s negated => do return .inSubquery (← v.expr e) (← s.visit v) negated
  | .isNull e negated => (v.expr e).map (.isNull · negated)
  | .exists s negated => (s.visit v).map (.exists · negated)
  | .raw sql => .ok (.raw sql)

def Condition.visit (c : Condition) : Except Stop Condition := do
  return ⟨c.connective, ← c.predicates.mapM v.predicate, ← c.groups.mapM v.condition⟩

def Source.visit : Source → Except Stop Source
  | .query q => (v.select q).map .query
  | s => .ok s

def TableRef.visit (t : TableRef) : Except Stop TableRef :=
  (t.source.visit v).map (⟨·, t.aliasName⟩)

def JoinCondition.visit : JoinCondition → Except Stop JoinCondition
  | .condition c => (v.condition c).map .condition
  | c => .ok c

def Join.visit (j : Join) : Except Stop Join := do
  return ⟨j.joinType, ← v.tableRef j.right, ← j.condition.visit v⟩

def FromClause.visit : FromClause → Except Stop FromClause
  | ⟨none, joins⟩ => (joins.mapM (Join.visit v)).map (⟨none, ·⟩)
  | ⟨some base, joins⟩ => do return ⟨some (← v.tableRef base), ← joins.mapM (Join.visit v)⟩

def SelectItem.visit (i : SelectItem) : Except Stop SelectItem :=
  (v.expr i.expr).map (⟨·, i.aliasName⟩)

def Select.visit (q : Select) : Except Stop Select := do
  return { q with
    items := ← q.items.mapM (SelectItem.visit v)
    source := ← v.fromClause q.source
    filter := ← v.condition q.filter
    having := ← v.condition q.having }

end Visits

/-! ## Pages that are left -/

/-- A page is left in a tree when its pages are expanded. -/
def Node.KeepsPage (n : Node) : Prop := n.expandPages.pageCount ≠ 0

theorem Node.pageCount_ne_zero_iff {n : Node} :
    n.pageCount ≠ 0 ↔ n.ownPages ≠ 0 ∨ ∃ m ∈ n.children, m.pageCount ≠ 0 := by
  have hsum : (n.children.map pageCount).sum = 0 ↔ ∀ m ∈ n.children, m.pageCount = 0 := by
    rw [List.sum_eq_zero_iff, List.forall_mem_map]
  rw [pageCount_eq, Ne, Nat.add_eq_zero_iff, hsum, not_and_or]
  simp

theorem Node.keepsPage_iff {n : Node} (h : ∀ q, n ≠ .select q) :
    n.KeepsPage ↔ ∃ m ∈ n.children, m.KeepsPage := by
  have hown : n.expandPages.ownPages = 0 := by
    cases n with
    | select q => exact absurd rfl (h q)
    | _ => rfl
  rw [KeepsPage, pageCount_ne_zero_iff, hown, children_expandPages h]
  simp [KeepsPage]

/-- If the own page of a query is not expanded, a page is left if it has one or one of its children
keeps a page. -/
theorem Select.keepsPage_iff {q : Select} (h : q.expandPages = q.expandParts) :
    (Node.select q).KeepsPage ↔
      q.page ≠ none ∨ ∃ m ∈ (Node.select q).children, m.KeepsPage := by
  have hown : (Node.select q.expandParts).ownPages ≠ 0 ↔ q.page ≠ none := by
    cases hp : q.page <;> simp [Node.ownPages, expandParts, hp]
  rw [Node.KeepsPage, Node.expandPages, h, Node.pageCount_ne_zero_iff, hown, children_expandParts]
  simp [Node.KeepsPage]

/-! ## Settling -/

/-- A visit comes to a result or, if it gets stuck, to the error of a page without an order. -/
def Settled {α : Type} (stuck : Prop) (x : Except Stop α) (a : α) : Prop :=
  (¬stuck → x = .ok a) ∧ (stuck → x = .error (.failed (.invalidQuery .pageWithoutOrder)))

namespace Settled

variable {α β : Type} {stuck stuck' : Prop} {x : Except Stop α} {a : α}

theorem ok (a : α) : Settled False (.ok a) a := ⟨fun _ => rfl, False.elim⟩

theorem congr (hstuck : stuck ↔ stuck') (h : Settled stuck x a) : Settled stuck' x a :=
  propext hstuck ▸ h

theorem bind {f : α → Except Stop β} {b : β} (h : Settled stuck x a)
    (hf : Settled stuck' (f a) b) : Settled (stuck ∨ stuck') (x >>= f) b := by
  constructor
  · intro hfree
    obtain ⟨hfirst, hsecond⟩ := not_or.mp hfree
    rw [h.1 hfirst]
    exact hf.1 hsecond
  · intro hstuck
    by_cases hfirst : stuck
    · rw [h.2 hfirst]
      rfl
    · rw [h.1 hfirst]
      exact hf.2 (hstuck.resolve_left hfirst)

theorem map (h : Settled stuck x a) (f : α → β) : Settled stuck (x.map f) (f a) :=
  ⟨fun hfree => by rw [h.1 hfree, Except.map], fun hstuck => by rw [h.2 hstuck, Except.map]⟩

theorem mapM {f : α → Except Stop β} {g : α → β} {stuckAt : α → Prop} {l : List α}
    (h : ∀ a ∈ l, Settled (stuckAt a) (f a) (g a)) :
    Settled (∃ a ∈ l, stuckAt a) (l.mapM f) (l.map g) := by
  induction l with
  | nil => exact .congr (by simp) (ok [])
  | cons a l ih =>
    obtain ⟨ha, hl⟩ := List.forall_mem_cons.mp h
    rw [List.mapM_cons]
    exact .congr (by simp) (ha.bind ((ih hl).bind (ok _)))

/-- The parts of a tree that are no trees themselves are visited by visiting the trees in them. -/
theorem mapM_flatMap {f : α → Except Stop β} {g : α → β} {parts : α → List Node} {l : List α}
    (h : ∀ a ∈ l, Settled (∃ m ∈ parts a, m.KeepsPage) (f a) (g a)) :
    Settled (∃ m ∈ l.flatMap parts, m.KeepsPage) (l.mapM f) (l.map g) := by
  refine .congr ?_ (mapM h)
  simp only [List.mem_flatMap]
  exact ⟨fun ⟨a, ha, m, hm, hkeeps⟩ => ⟨m, ⟨a, ha, hm⟩, hkeeps⟩,
    fun ⟨m, ⟨a, ha, hm⟩, hkeeps⟩ => ⟨a, ha, m, hm, hkeeps⟩⟩

end Settled

/-- A visitor comes to the expanded tree, and gets stuck if that keeps a page. -/
def Visitor.Settles (v : Visitor) : Node → Prop
  | .expr e => Settled (Node.expr e).KeepsPage (v.expr e) e.expandPages
  | .predicate p => Settled (Node.predicate p).KeepsPage (v.predicate p) p.expandPages
  | .condition c => Settled (Node.condition c).KeepsPage (v.condition c) c.expandPages
  | .tableRef t => Settled (Node.tableRef t).KeepsPage (v.tableRef t) t.expandPages
  | .fromClause f => Settled (Node.fromClause f).KeepsPage (v.fromClause f) f.expandPages
  | .select q => Settled (Node.select q).KeepsPage (v.select q) q.expandPages

/-! ## Trees -/

section Trees

variable {v : Visitor}

theorem Subquery.settled_visit {s : Subquery} (h : ∀ m ∈ s.nodes, v.Settles m) :
    Settled (∃ m ∈ s.nodes, m.KeepsPage) (s.visit v) s.expandPages := by
  cases s with
  | query q => exact .congr (by simp [nodes]) ((h (.select q) List.mem_cons_self).map _)
  | text sql => exact .congr (by simp [nodes]) (.ok _)

theorem CaseArm.settled_visit {a : CaseArm} (h : ∀ m ∈ a.nodes, v.Settles m) :
    Settled (∃ m ∈ a.nodes, m.KeepsPage) (a.visit v) a.expandPages := by
  obtain ⟨hcondition, hrest⟩ := List.forall_mem_cons.mp h
  have hresult := List.forall_mem_singleton.mp hrest
  exact .congr (by simp [nodes]) (hcondition.bind (hresult.bind (.ok _)))

theorem Expr.settled_visit {e : Expr} (h : ∀ m ∈ e.nodes, v.Settles m) :
    Settled (∃ m ∈ e.nodes, m.KeepsPage) (e.visit v) e.expandPages := by
  cases e with
  | function name args =>
    rw [Expr.expandPages, Expr.expandPagesOfAll_eq_map]
    have hargs : Settled (∃ a ∈ args, (Node.expr a).KeepsPage) (args.mapM v.expr)
        (args.map Expr.expandPages) :=
      .mapM fun a ha => h (.expr a) (List.mem_map_of_mem ha)
    exact .congr (by simp [nodes]) (hargs.map _)
  | aggregate f arg distinct =>
    cases arg with
    | none => exact .congr (by simp [nodes]) (.ok _)
    | some arg => exact .congr (by simp [nodes]) ((h (.expr arg) List.mem_cons_self).map _)
  | case arms otherwise =>
    obtain ⟨harms, hotherwise⟩ := List.forall_mem_append.mp h
    have hsettled : Settled (∃ m ∈ arms.flatMap CaseArm.nodes, m.KeepsPage)
        (arms.mapM (CaseArm.visit v)) (arms.map CaseArm.expandPages) :=
      .mapM_flatMap fun a ha =>
        CaseArm.settled_visit fun m hm => harms m (List.mem_flatMap_of_mem ha hm)
    rw [← CaseArm.expandPagesOfAll_eq_map] at hsettled
    cases otherwise with
    | none => exact .congr (by simp [nodes]) (hsettled.map _)
    | some e =>
      have he := hotherwise (.expr e) List.mem_cons_self
      exact .congr (by simp [nodes, or_and_right, exists_or]) (hsettled.bind (he.bind (.ok _)))
  | arithmetic | dateDiff | ifNull =>
    obtain ⟨hleft, hrest⟩ := List.forall_mem_cons.mp h
    have hright := List.forall_mem_singleton.mp hrest
    exact .congr (by simp [nodes]) (hleft.bind (hright.bind (.ok _)))
  | subquery q => exact .congr (by simp [nodes]) ((h (.select q) List.mem_cons_self).map _)
  | _ => exact .congr (by simp [nodes]) (.ok _)

theorem Predicate.settled_visit {p : Predicate} (h : ∀ m ∈ p.nodes, v.Settles m) :
    Settled (∃ m ∈ p.nodes, m.KeepsPage) (p.visit v) p.expandPages := by
  cases p with
  | compare left op right =>
    obtain ⟨hleft, hrest⟩ := List.forall_mem_cons.mp h
    have hright := List.forall_mem_singleton.mp hrest
    exact .congr (by simp [nodes]) (hleft.bind (hright.bind (.ok _)))
  | between e low high negated =>
    obtain ⟨he, hbounds⟩ := List.forall_mem_cons.mp h
    obtain ⟨hlow, hrest⟩ := List.forall_mem_cons.mp hbounds
    have hhigh := List.forall_mem_singleton.mp hrest
    exact .congr (by simp [nodes]) (he.bind (hlow.bind (hhigh.bind (.ok _))))
  | inSubquery e s negated =>
    obtain ⟨he, hs⟩ := List.forall_mem_cons.mp h
    exact .congr (by simp [nodes]) (he.bind ((Subquery.settled_visit hs).bind (.ok _)))
  | inList e _ _ | isNull e _ =>
    exact .congr (by simp [nodes]) ((h (.expr e) List.mem_cons_self).map _)
  | «exists» s negated => exact (Subquery.settled_visit h).map _
  | raw sql => exact .congr (by simp [nodes]) (.ok _)

theorem Condition.settled_visit {c : Condition}
    (h : ∀ m ∈ (Node.condition c).children, v.Settles m) :
    Settled (∃ m ∈ (Node.condition c).children, m.KeepsPage) (c.visit v) c.expandPages := by
  obtain ⟨connective, predicates, groups⟩ := c
  obtain ⟨hpredicates, hgroups⟩ := List.forall_mem_append.mp h
  have hfirst : Settled (∃ p ∈ predicates, (Node.predicate p).KeepsPage)
      (predicates.mapM v.predicate) (predicates.map Predicate.expandPages) :=
    .mapM fun p hp => hpredicates (.predicate p) (List.mem_map_of_mem hp)
  have hsecond : Settled (∃ g ∈ groups, (Node.condition g).KeepsPage)
      (groups.mapM v.condition) (groups.map Condition.expandPages) :=
    .mapM fun g hg => hgroups (.condition g) (List.mem_map_of_mem hg)
  rw [Condition.expandPages, Predicate.expandPagesOfAll_eq_map, Condition.expandPagesOfAll_eq_map]
  exact .congr (by simp [Node.children, or_and_right, exists_or])
    (hfirst.bind (hsecond.bind (.ok _)))

theorem Source.settled_visit {s : Source} (h : ∀ m ∈ s.nodes, v.Settles m) :
    Settled (∃ m ∈ s.nodes, m.KeepsPage) (s.visit v) s.expandPages := by
  cases s with
  | query q => exact .congr (by simp [nodes]) ((h (.select q) List.mem_cons_self).map _)
  | _ => exact .congr (by simp [nodes]) (.ok _)

theorem TableRef.settled_visit {t : TableRef}
    (h : ∀ m ∈ (Node.tableRef t).children, v.Settles m) :
    Settled (∃ m ∈ (Node.tableRef t).children, m.KeepsPage) (t.visit v) t.expandPages := by
  obtain ⟨source, aliasName⟩ := t
  exact (Source.settled_visit h).map _

theorem JoinCondition.settled_visit {c : JoinCondition} (h : ∀ m ∈ c.nodes, v.Settles m) :
    Settled (∃ m ∈ c.nodes, m.KeepsPage) (c.visit v) c.expandPages := by
  cases c with
  | condition c => exact .congr (by simp [nodes]) ((h (.condition c) List.mem_cons_self).map _)
  | _ => exact .congr (by simp [nodes]) (.ok _)

theorem Join.settled_visit {j : Join} (h : ∀ m ∈ j.nodes, v.Settles m) :
    Settled (∃ m ∈ j.nodes, m.KeepsPage) (j.visit v) j.expandPages := by
  obtain ⟨hright, hcondition⟩ := List.forall_mem_cons.mp h
  exact .congr (by simp [nodes])
    (hright.bind ((JoinCondition.settled_visit hcondition).bind (.ok _)))

theorem FromClause.settled_visit {f : FromClause}
    (h : ∀ m ∈ (Node.fromClause f).children, v.Settles m) :
    Settled (∃ m ∈ (Node.fromClause f).children, m.KeepsPage) (f.visit v) f.expandPages := by
  obtain ⟨base, joins⟩ := f
  obtain ⟨hbase, hjoins⟩ := List.forall_mem_append.mp h
  have hsettled : Settled (∃ m ∈ joins.flatMap Join.nodes, m.KeepsPage)
      (joins.mapM (Join.visit v)) (joins.map Join.expandPages) :=
    .mapM_flatMap fun j hj =>
      Join.settled_visit fun m hm => hjoins m (List.mem_flatMap_of_mem hj hm)
  rw [← Join.expandPagesOfAll_eq_map] at hsettled
  cases base with
  | none => exact .congr (by simp [Node.children]) (hsettled.map _)
  | some base =>
    have hfirst := hbase (.tableRef base) List.mem_cons_self
    exact .congr (by simp [Node.children]) (hfirst.bind (hsettled.bind (.ok _)))

/-- A level of a visit at a query comes to the query with its parts expanded. -/
theorem Select.settled_visit {q : Select}
    (h : ∀ m ∈ (Node.select q).children, v.Settles m) :
    Settled (∃ m ∈ (Node.select q).children, m.KeepsPage) (q.visit v) q.expandParts := by
  obtain ⟨hitems, hparts⟩ := List.forall_mem_append.mp h
  obtain ⟨hsource, hconditions⟩ := List.forall_mem_cons.mp hparts
  obtain ⟨hfilter, hrest⟩ := List.forall_mem_cons.mp hconditions
  have hhaving := List.forall_mem_singleton.mp hrest
  have hsettled : Settled (∃ i ∈ q.items, (Node.expr i.expr).KeepsPage)
      (q.items.mapM (SelectItem.visit v)) (q.items.map SelectItem.expandPages) :=
    .mapM fun i hi => (List.forall_mem_map.mp hitems i hi).map _
  exact .congr (by simp [Node.children, or_and_right, exists_or])
    (hsettled.bind (hsource.bind (hfilter.bind (hhaving.bind (.ok _)))))

end Trees

end SqlTree
