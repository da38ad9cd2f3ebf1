import SqlTree.Proofs.Paging.Blocks

/-!
# Expanded trees are valid

The checks are made on a tree as it was given, but a dialect may write it with its pages expanded.
Expanding keeps the rule of every node that is no query, and puts blocks around a query, which are
valid if the query is.

Results:
* `Node.keepsRule_expandPages`: an expanded node that is no query keeps its rule.
* `Node.violations_expandPages`: a valid tree stays valid when its pages are expanded.
-/

namespace SqlTree

/-! ## Rules -/

theorem Condition.hasPredicate_expandPages {c : Condition} :
    c.expandPages.HasPredicate ↔ c.HasPredicate := by
  rw [← Condition.isEmpty_eq_false_iff, ← Condition.isEmpty_eq_false_iff,
    Condition.isEmpty_expandPages]

theorem Expr.keepsRule_expandPages {e : Expr} (h : e.KeepsRule) : e.expandPages.KeepsRule := by
  cases e with
  | aggregate f arg distinct => cases arg <;> exact trivial
  | case arms otherwise =>
    obtain ⟨hne, hconditions⟩ := h
    have harms : (CaseArm.expandPagesOfAll arms ≠ []) ∧
        ∀ a ∈ CaseArm.expandPagesOfAll arms, a.condition.HasPredicate := by
      rw [CaseArm.expandPagesOfAll_eq_map]
      refine ⟨by simpa using hne, List.forall_mem_map.mpr fun a ha => ?_⟩
      exact Condition.hasPredicate_expandPages.mpr (hconditions a ha)
    cases otherwise <;> exact harms
  | _ => exact h

theorem Predicate.keepsRule_expandPages {p : Predicate} (h : p.KeepsRule) :
    p.expandPages.KeepsRule := by
  cases p <;> exact h

theorem TableRef.keepsRule_expandPages {t : TableRef} (h : t.KeepsRule) :
    t.expandPages.KeepsRule := by
  obtain ⟨source, aliasName⟩ := t
  cases source <;> exact h

theorem TableRef.refName_expandPages (t : TableRef) : t.expandPages.refName = t.refName := by
  obtain ⟨source, aliasName⟩ := t
  cases source <;> rfl

theorem TableRef.aliasName_expandPages (t : TableRef) : t.expandPages.aliasName = t.aliasName := by
  cases t
  rfl

theorem FromClause.sources_expandPages (f : FromClause) :
    f.expandPages.sources = f.sources.map TableRef.expandPages := by
  obtain ⟨base, joins⟩ := f
  cases base <;>
    simp [FromClause.sources, FromClause.expandPages, Join.expandPages, Function.comp_def]

theorem FromClause.names_expandPages (f : FromClause) : f.expandPages.names = f.names := by
  simp only [FromClause.names, FromClause.sources_expandPages, List.filterMap_map,
    Function.comp_def, TableRef.refName_expandPages]

theorem JoinCondition.fits_expandPages {known : List String} {joinType : JoinType}
    {c : JoinCondition} (h : c.Fits known joinType) : c.expandPages.Fits known joinType := by
  cases c with
  | condition c => exact ⟨h.1, Condition.hasPredicate_expandPages.mpr h.2⟩
  | _ => exact h

theorem Join.keepsRule_expandPages {known : List String} {j : Join} (h : j.KeepsRule known) :
    j.expandPages.KeepsRule known where
  hasAlias := by
    rw [Join.expandPages, TableRef.aliasName_expandPages]
    exact h.hasAlias
  fits := JoinCondition.fits_expandPages h.fits

/-- The joins in front of an expanded join are the expanded ones in front of the join. -/
theorem FromClause.keepsRule_expandPages {f : FromClause} (h : f.KeepsRule) :
    f.expandPages.KeepsRule := by
  obtain ⟨base, joins⟩ := f
  obtain ⟨hbase, hjoins⟩ := h
  obtain ⟨base, rfl⟩ := Option.ne_none_iff_exists'.mp hbase
  have hexpand (js : List Join) : (FromClause.mk (some base) js).expandPages =
      ⟨some base.expandPages, js.map Join.expandPages⟩ := by
    rw [FromClause.expandPages, Join.expandPagesOfAll_eq_map]
  rw [hexpand]
  refine ⟨by simp, fun before j after hsplit => ?_⟩
  obtain ⟨before', rest, hsplit', rfl, hrest⟩ := List.map_eq_append_iff.mp hsplit
  obtain ⟨j', after', rfl, rfl, rfl⟩ := List.map_eq_cons_iff.mp hrest
  rw [← hexpand, FromClause.names_expandPages]
  exact Join.keepsRule_expandPages (hjoins before' j' after' hsplit')

theorem Select.keepsRule_expandParts {q : Select} (h : q.KeepsRule) : q.expandParts.KeepsRule where
  pageSize := h.pageSize
  pageOrder := h.pageOrder
  groupKeys := h.groupKeys

/-! ## Nodes -/

namespace Node

/-- An expanded node that is no query keeps its rule. -/
theorem keepsRule_expandPages {n : Node} (hn : ∀ q, n ≠ select q) (h : n.KeepsRule) :
    n.expandPages.KeepsRule := by
  cases n with
  | expr e => exact Expr.keepsRule_expandPages h
  | predicate p => exact Predicate.keepsRule_expandPages h
  | condition c => exact trivial
  | tableRef t => exact TableRef.keepsRule_expandPages h
  | fromClause f => exact FromClause.keepsRule_expandPages h
  | select q => exact absurd rfl (hn q)

/-- A query with valid expanded parts stays valid when its own page is expanded: it has an order if
it has a page. -/
theorem violations_expandOwnPage {q : Select} (h : q.violations = []) :
    q.expandOwnPage.violations = [] := by
  unfold Select.expandOwnPage
  split
  · exact h
  · rename_i p hpage
    have horder : q.orderBy ≠ [] := Select.orderBy_ne_nil h hpage
    rw [if_neg (by simpa using horder)]
    exact Select.violations_numberedBlocks p h horder

/-- A valid tree stays valid when its pages are expanded. -/
theorem violations_expandPages {n : Node} (h : n.violations = []) :
    n.expandPages.violations = [] := by
  induction n using Node.induction with
  | step n ih =>
    obtain ⟨hrule, hchildren⟩ := n.violations_eq_nil_iff.mp h
    have hexpanded : ∀ c ∈ n.children.map expandPages, c.violations = [] :=
      List.forall_mem_map.mpr fun c hc => ih c hc (hchildren c hc)
    by_cases hn : ∃ q, n = select q
    · obtain ⟨q, rfl⟩ := hn
      have hparts : q.expandParts.violations = [] := by
        refine q.expandParts.violations_eq_nil_iff.mpr ⟨Select.keepsRule_expandParts hrule, ?_⟩
        rwa [Select.children_expandParts]
      rw [expandPages, Select.expandPages_eq]
      exact violations_expandOwnPage hparts
    · have hn : ∀ q, n ≠ select q := fun q hq => hn ⟨q, hq⟩
      refine n.expandPages.violations_eq_nil_iff.mpr ⟨keepsRule_expandPages hn hrule, ?_⟩
      rwa [children_expandPages hn]

end Node

end SqlTree
