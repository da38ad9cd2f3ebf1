import SqlTree.Proofs.Paging.Columns
import SqlTree.Proofs.Tree.Obstacles
import SqlTree.Proofs.Tree.ValidStatements
import SqlTree.Rendering

/-!
# Obstacles and violations of the blocks of a page

The middle and the outer block consist of names, two row counts and a window over the sort keys.
They bring in no construct that a dialect could lack and break no rule, as long as there is a sort
key. The inner block is the query with further columns, which are fields.

Results:
* `Select.mem_obstacles_of_numberedBlocks`: the obstacles in the blocks of a page are obstacles in
  the query without its page.
* `Select.violations_numberedBlocks`: the blocks of a valid query with an order are valid.
* `Select.violations_rowCount`: the query that counts the rows of a valid query is valid.
-/

namespace SqlTree

namespace Select

variable {d : Dialect} {e : Error}

/-! ## Obstacles -/

theorem obstacles_of_mem_outerItems {shown : List SelectItem} {i : SelectItem}
    (h : i ∈ outerItems shown) : i.expr.obstacles d = [] := by
  rcases expr_of_mem_outerItems h with ⟨table, he⟩ | ⟨table, name, he⟩ <;>
    rw [he, Expr.obstacles]

/-- The outer block has the obstacles of the middle one. -/
theorem obstacles_outerBlock (middle : Select) (shown : List SelectItem)
    (names : List (String × SortDirection)) (first last : UInt64) :
    (outerBlock middle shown names first last).obstacles d = middle.obstacles d := by
  have hitems : (outerItems shown).flatMap (fun i => i.expr.obstacles d) = [] :=
    List.flatMap_eq_nil_iff.mpr fun _ hi => obstacles_of_mem_outerItems hi
  simp only [outerBlock, empty, obstacles, SelectItem.obstaclesOfAll_eq_flatMap, hitems]
  simp [pageObstacles, groupObstacles, FromClause.ofQuery, FromClause.isEmpty,
    FromClause.obstacles, TableRef.obstacles, Source.obstacles, rowsBetween, countExpr,
    Condition.empty, Condition.obstacles, Predicate.obstacles, Expr.obstacles]

/-- The middle block has the obstacles of the inner one. -/
theorem obstacles_middleBlock (inner : Select) (names : List (String × SortDirection)) :
    (middleBlock inner names).obstacles d = inner.obstacles d := by
  simp [middleBlock, empty, obstacles, pageObstacles, groupObstacles, FromClause.ofQuery,
    FromClause.isEmpty, FromClause.obstacles, TableRef.obstacles, Source.obstacles, allColumnsOf,
    Condition.empty, Condition.obstacles, Expr.obstacles]

theorem mem_obstacles_of_innerItems {q : Select}
    (h : e ∈ SelectItem.obstaclesOfAll d q.innerItems) :
    e ∈ SelectItem.obstaclesOfAll d q.items := by
  rw [SelectItem.obstaclesOfAll_eq_flatMap] at h ⊢
  obtain ⟨i, hi, h⟩ := List.mem_flatMap.mp h
  rcases exists_expr_of_mem_innerItems hi with ⟨j, hj, he⟩ | ⟨table, name, he⟩
  · exact List.mem_flatMap.mpr ⟨j, hj, he ▸ h⟩
  · simp [he, Expr.obstacles] at h

/-- The obstacles in the blocks of a page are obstacles in the query without its page. -/
theorem mem_obstacles_of_numberedBlocks {q : Select} {p : Page}
    (h : e ∈ (q.numberedBlocks p).obstacles d) : e ∈ { q with page := none }.obstacles d := by
  rw [numberedBlocks_eq, obstacles_outerBlock, obstacles_middleBlock, innerBlock] at h
  simp only [obstacles, List.mem_append] at h ⊢
  have := mem_obstacles_of_innerItems (d := d) (e := e) (q := q)
  grind

/-! ## Violations -/

theorem violations_of_mem_outerItems {shown : List SelectItem} {i : SelectItem}
    (h : i ∈ outerItems shown) : i.expr.violations = [] := by
  rcases expr_of_mem_outerItems h with ⟨table, he⟩ | ⟨table, name, he⟩ <;>
    rw [he, Expr.violations]

theorem violations_countExpr (n : UInt64) : (countExpr n).violations = [] := by
  simp [countExpr, Expr.violations, Constant.violations, Constant.isFinite, Number.isFinite]

/-- A query in one named source and without joins has the violations of that source. -/
theorem violations_ofQuery (q : Select) (aliasName : String) :
    (FromClause.ofQuery q aliasName).violations = q.violations := by
  simp [FromClause.ofQuery, FromClause.violations, TableRef.violations, sourceViolations,
    Source.violations, Join.violationsOfAll]

/-- The outer block has the violations of the middle one. -/
theorem violations_outerBlock (middle : Select) (shown : List SelectItem)
    (names : List (String × SortDirection)) (first last : UInt64) :
    (outerBlock middle shown names first last).violations = middle.violations := by
  have hitems : (outerItems shown).flatMap (fun i => i.expr.violations) = [] :=
    List.flatMap_eq_nil_iff.mpr fun _ hi => violations_of_mem_outerItems hi
  simp only [outerBlock, empty, violations, SelectItem.violationsOfAll_eq_flatMap, hitems]
  simp [violations_ofQuery, rowsBetween, pageViolations, groupViolations, Condition.empty,
    Condition.violations, Predicate.violations, Expr.violations, violations_countExpr]

/-- The middle block has the violations of the inner one, and one of its own if there is no sort
key. -/
theorem violations_middleBlock (inner : Select) (names : List (String × SortDirection)) :
    (middleBlock inner names).violations =
      inner.violations ++ violationIf (names = []) .windowWithoutOrder := by
  simp [middleBlock, empty, violations, violations_ofQuery, allColumnsOf, pageViolations,
    groupViolations, Condition.empty, Condition.violations, Expr.violations, sortKeysOf]

theorem violations_innerItems {q : Select} (h : SelectItem.violationsOfAll q.items = []) :
    SelectItem.violationsOfAll q.innerItems = [] := by
  rw [SelectItem.violationsOfAll_eq_flatMap, List.flatMap_eq_nil_iff] at h ⊢
  intro i hi
  rcases exists_expr_of_mem_innerItems hi with ⟨j, hj, he⟩ | ⟨table, name, he⟩
  · rw [he]
    exact h j hj
  · rw [he]
    rfl

/-- The blocks of a valid query with an order are valid. -/
theorem violations_numberedBlocks {q : Select} (p : Page) (h : q.violations = [])
    (ho : q.orderBy ≠ []) : (q.numberedBlocks p).violations = [] := by
  have hnames : q.sortNames ≠ [] := by
    intro hn
    rw [← List.length_eq_zero_iff, length_sortNames, List.length_eq_zero_iff] at hn
    exact ho hn
  obtain ⟨items, source, filter, groupBy, groupModifier, having, orderBy, _, _, page, _⟩ := q
  simp only [violations, List.append_eq_nil_iff] at h
  obtain ⟨⟨⟨⟨⟨hsource, -⟩, hgroup⟩, hitems⟩, hfilter⟩, hhaving⟩ := h
  rw [numberedBlocks_eq, violations_outerBlock, violations_middleBlock, innerBlock]
  simp only [violations, List.append_eq_nil_iff, violationIf_eq_nil]
  exact ⟨⟨⟨⟨⟨⟨hsource, rfl⟩, hgroup⟩, violations_innerItems hitems⟩, hfilter⟩, hhaving⟩, hnames⟩

/-- The query that counts the rows of a valid query is valid. -/
theorem violations_rowCount {q : Select} (h : q.violations = []) : q.rowCount.violations = [] := by
  obtain ⟨items, source, filter, groupBy, groupModifier, having, orderBy, _, _, page, _⟩ := q
  simp only [violations, List.append_eq_nil_iff] at h
  obtain ⟨⟨⟨⟨⟨hsource, -⟩, hgroup⟩, hitems⟩, hfilter⟩, hhaving⟩ := h
  simp only [rowCount, empty, violations, violations_ofQuery, List.append_eq_nil_iff]
  exact ⟨⟨⟨⟨⟨⟨⟨⟨⟨⟨hsource, rfl⟩, hgroup⟩, hitems⟩, hfilter⟩, hhaving⟩, rfl⟩, rfl⟩, rfl⟩, rfl⟩, rfl⟩

/-! ## A query -/

/-- The second page of two ids in a table, ordered by a date that is not shown. -/
def secondPage : Select :=
  { empty with
    items := [{ expr := .field (some "orders") "id", aliasName := none }]
    source := ⟨some ⟨.table "orders" none, none⟩, []⟩
    orderBy := [{ field := "placed", table := some "orders", direction := .desc }]
    page := some ⟨1, 2⟩ }

end Select

end SqlTree
