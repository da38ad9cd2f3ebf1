import SqlTree.Proofs.Paging.Blocks
import SqlTree.Proofs.Paging.MappedColumns

/-!
# Rendering a query through the query that is run for its page

The query that a dialect runs for a page is a query like any other: it can be checked and rendered
again. Where the page has become blocks, rendering expands the pages inside the blocks, which comes
to the same as expanding them before the blocks are put around.

Results:
* `Select.expandPages_numberedBlocks`: the blocks of a page, expanded, are the expanded query.
* `Select.paged_valid_and_sql_eq`: the query that is run for the page of a valid query, its blocks
  and the query that counts its rows are valid, and rendering a query is rendering the one that is
  run for it.
-/

namespace SqlTree

/-- Expanding pages leaves fields and stars as they are. -/
theorem Expr.keepsColumns_expandPages : KeepsColumns Expr.expandPages where
  fixes e h := by
    cases e with
    | field | star => rfl
    | _ => simp [isColumn] at h
  reflects e := by
    cases e with
    | aggregate f arg distinct => cases arg <;> rfl
    | case arms otherwise => cases otherwise <;> rfl
    | _ => rfl

namespace Select

/-! ## Expanding blocks -/

/-- Expanding the outer block expands the middle one. -/
theorem expandPages_outerBlock (middle : Select) (shown : List SelectItem)
    (names : List (String × SortDirection)) (first last : UInt64) :
    (outerBlock middle shown names first last).expandPages =
      outerBlock middle.expandPages shown names first last := by
  have hitems : (outerItems shown).map SelectItem.expandPages = outerItems shown :=
    Expr.keepsColumns_expandPages.map_outerItems shown
  rw [expandPages_eq, outerBlock, expandParts, hitems]
  rfl

/-- Expanding the middle block expands the inner one. -/
theorem expandPages_middleBlock (inner : Select) (names : List (String × SortDirection)) :
    (middleBlock inner names).expandPages = middleBlock inner.expandPages names := by
  rw [expandPages_eq]
  rfl

/-- Expanding the inner block expands the parts of the query. -/
theorem expandPages_innerBlock (q : Select) (items : List SelectItem) :
    (q.innerBlock items).expandPages =
      q.expandParts.innerBlock (items.map SelectItem.expandPages) := by
  rw [expandPages_eq]
  rfl

theorem expandPages_of_orderBy_eq_nil {q : Select} (ho : q.orderBy = []) :
    q.expandPages = q.expandParts := by
  have horder : q.expandParts.orderBy = [] := ho
  rw [expandPages_eq, expandOwnPage, horder]
  split <;> rfl

theorem expandPages_of_page {q : Select} {p : Page} (hp : q.page = some p) (ho : q.orderBy ≠ []) :
    q.expandPages = q.expandParts.numberedBlocks p := by
  have hpage : q.expandParts.page = some p := hp
  have horder : q.expandParts.orderBy.isEmpty = false := by simpa [expandParts] using ho
  simp [expandPages_eq, expandOwnPage, hpage, horder]

/-- The blocks of a page, expanded, are the expanded query: the names in the blocks come from the
columns, and expanding keeps those. -/
theorem expandPages_numberedBlocks {q : Select} {p : Page} (hp : q.page = some p)
    (ho : q.orderBy ≠ []) : (q.numberedBlocks p).expandPages = q.expandPages := by
  have hblocks := Expr.keepsColumns_expandPages.numberedBlocks_eq
    (q := q) (r := q.expandParts) rfl rfl rfl p
  rw [expandPages_of_page hp ho, hblocks, numberedBlocks_eq, expandPages_outerBlock,
    expandPages_middleBlock, expandPages_innerBlock]
  rfl

/-! ## Paging -/

/-- The construction of blocks succeeds for a valid query, and its result is valid. -/
theorem exists_numberedBlocks? {q : Select} (h : q.violations = []) :
    ∃ b, q.numberedBlocks? = .ok b ∧ b.violations = [] := by
  cases hp : q.page with
  | none => exact ⟨q, numberedBlocks?_of_page_eq_none hp, h⟩
  | some p =>
    have ho := orderBy_ne_nil h hp
    exact ⟨_, numberedBlocks?_of_page hp ho, violations_numberedBlocks p h ho⟩

theorem paged_of_violations_eq_nil (d : Dialect) {q : Select} (h : q.violations = []) :
    q.paged d = if d.expandsPages then q.numberedBlocks? else .ok q := by
  rw [paged, h]
  rfl

theorem sql_of_violations_eq_nil (d : Dialect) {q : Select} (h : q.violations = []) :
    q.sql d = (Statement.select q).sqlUnchecked d := by
  rw [sql, Statement.sql, Statement.violations, h]
  rfl

theorem forDialect_numberedBlocks {d : Dialect} {q : Select} {p : Page}
    (hd : d.expandsPages = true) (hp : q.page = some p) (ho : q.orderBy ≠ []) :
    (q.numberedBlocks p).forDialect d = q.forDialect d := by
  rw [forDialect, forDialect, if_pos hd, if_pos hd, expandPages_numberedBlocks hp ho]

/-- A dialect writes the query that is run for the page of a valid query as it writes the query,
and expands no page of it but those in its parts. -/
theorem exists_paged_and_forDialect_eq (d : Dialect) {q : Select} (h : q.violations = []) :
    ∃ r, q.paged d = .ok r ∧ r.forDialect d = q.forDialect d ∧
      (d.expandsPages = true → r.page = none) := by
  rw [paged_of_violations_eq_nil d h]
  split
  · rename_i hd
    cases hp : q.page with
    | none => exact ⟨q, numberedBlocks?_of_page_eq_none hp, rfl, fun _ => hp⟩
    | some p =>
      have ho := orderBy_ne_nil h hp
      exact ⟨_, numberedBlocks?_of_page hp ho, forDialect_numberedBlocks hd hp ho, fun _ => rfl⟩
  · rename_i hd
    exact ⟨q, rfl, rfl, fun hd' => absurd hd' hd⟩

/-- The blocks of a valid query render like the query. -/
theorem sql_numberedBlocks {d : Dialect} {q : Select} {p : Page} (hd : d.expandsPages = true)
    (h : q.violations = []) (hp : q.page = some p) : (q.numberedBlocks p).sql d = q.sql d := by
  have ho := orderBy_ne_nil h hp
  have hforDialect := forDialect_numberedBlocks hd hp ho
  rw [sql_of_violations_eq_nil d h, sql_of_violations_eq_nil d (violations_numberedBlocks p h ho)]
  simp only [Statement.sqlUnchecked, Statement.render, Statement.obstacles, Statement.tokens,
    hforDialect]

/-- The query that is run for the page of a valid query renders like the query. -/
theorem exists_paged_and_sql_eq (d : Dialect) {q : Select} (h : q.violations = []) :
    ∃ r, q.paged d = .ok r ∧ r.sql d = q.sql d := by
  rw [paged_of_violations_eq_nil d h]
  split
  · rename_i hd
    cases hp : q.page with
    | none => exact ⟨q, numberedBlocks?_of_page_eq_none hp, rfl⟩
    | some p =>
      exact ⟨_, numberedBlocks?_of_page hp (orderBy_ne_nil h hp), sql_numberedBlocks hd h hp⟩
  · exact ⟨q, rfl, rfl⟩

/-- Rendering a query is rendering the query that is run for its page. -/
theorem sql_eq_paged_bind_sql (d : Dialect) (q : Select) :
    q.sql d = q.paged d >>= Select.sql d := by
  cases hv : q.violations with
  | cons v vs =>
    rw [sql, Statement.sql, paged, Statement.violations, hv]
    rfl
  | nil =>
    obtain ⟨r, hr, hsql⟩ := exists_paged_and_sql_eq d hv
    rw [hr, ← hsql]
    exact (pure_bind r _).symm

/-- For a valid query, the query that is run for its page and its blocks exist, and they and the
query that counts its rows are valid. For every query, valid or not, rendering it is rendering the
query that is run for its page, with the same error. -/
theorem paged_valid_and_sql_eq (d : Dialect) (q : Select) :
    ((Statement.select q).validate = .ok () →
      (∃ r, q.paged d = .ok r ∧ (Statement.select r).validate = .ok ()) ∧
      (∃ b, q.numberedBlocks? = .ok b ∧ (Statement.select b).validate = .ok ()) ∧
      (Statement.select q.rowCount).validate = .ok ()) ∧
    q.sql d = q.paged d >>= Select.sql d := by
  refine ⟨fun h => ?_, sql_eq_paged_bind_sql d q⟩
  simp only [Statement.validate_eq_ok_iff, Statement.violations] at h ⊢
  obtain ⟨b, hb, hvalid⟩ := exists_numberedBlocks? h
  refine ⟨?_, ⟨b, hb, hvalid⟩, violations_rowCount h⟩
  rw [paged_of_violations_eq_nil d h]
  split
  · exact ⟨b, hb, hvalid⟩
  · exact ⟨q, rfl, h⟩

/-- A page of a table is valid, and so is the query that Oracle runs for it. -/
theorem paged_secondPage :
    (Statement.select secondPage).validate = .ok () ∧
    ∃ r, secondPage.paged .oracle = .ok r ∧ (Statement.select r).validate = .ok () :=
  ⟨rfl, ((paged_valid_and_sql_eq .oracle secondPage).1 rfl).1⟩

end Select

end SqlTree
