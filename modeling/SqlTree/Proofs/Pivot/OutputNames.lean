import SqlTree.Proofs.Pivot.ValidQueries
import SqlTree.Proofs.Tree.ValidStatements

/-!
# Output names of pivot tables

A pivot table promises its output columns by name: the row field, the named values in their order,
and the column for all values. Its rules make these names different, and they make the queries for
the table and for the rows behind a cell valid.

Results:
* `repeatedNames_eq_nil_iff`: no name is repeated exactly if all names are different.
* `PivotTable.map_outputName_items`: the output names of the query for a table are those promised.
* `PivotTable.find?_eq_none_iff`, `PivotTable.exists_find?_eq_some`: which names have a value.
* `PivotTable.build_and_drillDown_valid`: a valid table has valid queries with the promised columns,
  and one that is not valid has neither.
-/

namespace SqlTree

/-! ## Names -/

/-- No name is repeated exactly if the names are different from each other and from those in
`seen`. -/
theorem repeatedNames_eq_nil_iff {seen names : List String} :
    repeatedNames seen names = [] ↔ names.Nodup ∧ ∀ n ∈ names, n ∉ seen := by
  induction names generalizing seen with
  | nil => simp [repeatedNames]
  | cons n names ih =>
    rw [repeatedNames]
    by_cases hn : n ∈ seen
    · simp [hn]
    · rw [if_neg hn, ih, List.nodup_cons, List.forall_mem_cons]
      grind

namespace PivotTable

variable {p : PivotTable}

/-- The output names of a valid table are all different. -/
theorem nodup_outputNames (h : p.violations = []) : p.outputNames.Nodup := by
  simp only [violations, List.append_eq_nil_iff, List.map_eq_nil_iff] at h
  exact (repeatedNames_eq_nil_iff.mp h.1.2).1

/-- The output columns of the query for a table have the promised names, in their order. -/
theorem map_outputName_items (p : PivotTable) :
    p.crossTab.items.map SelectItem.outputName = p.outputNames.map some := by
  have hcells : (p.values.map fun fv => p.cell fv.1 fv.2).map SelectItem.outputName =
      (p.values.map fun fv => fv.2.name).map some := by
    rw [List.map_map, List.map_map]
    rfl
  have htotal : (p.totalName.toList.map p.total).map SelectItem.outputName =
      p.totalName.toList.map some := by
    rw [List.map_map]
    rfl
  rw [crossTab, outputNames, List.map_append, List.map_cons, hcells, htotal, List.map_append,
    List.map_cons]
  rfl

/-- The names of the values of a table. -/
def valueNames (p : PivotTable) : List String := p.values.map fun fv => fv.2.name

theorem find?_eq_none_iff {name : String} : p.find? name = none ↔ name ∉ p.valueNames := by
  simp [find?, valueNames]

theorem exists_find?_eq_some {name : String} (h : name ∈ p.valueNames) :
    ∃ field v, p.find? name = some (field, v) ∧ (field, v) ∈ p.values ∧ v.name = name := by
  have hsome : p.find? name ≠ none := fun hnone => find?_eq_none_iff.mp hnone h
  obtain ⟨⟨field, v⟩, hfind⟩ := Option.ne_none_iff_exists'.mp hsome
  have hname := List.find?_some hfind
  exact ⟨field, v, hfind, List.mem_of_find?_eq_some hfind, by simpa using hname⟩

/-! ## Valid queries -/

theorem violations_eq_nil_of_firstViolation (h : firstViolation p.violations = .ok ()) :
    p.violations = [] := by
  cases hv : p.violations with
  | nil => rfl
  | cons v vs =>
    rw [hv] at h
    contradiction

/-- A valid pivot table has a valid query, the columns of which have the promised names, all of them
different, and a valid query for the rows behind every cell, if its row value is finite or missing.
A table that is not valid has neither, for the reason of its own check. -/
theorem build_and_drillDown_valid (p : PivotTable) :
    (firstViolation p.violations = .ok () →
      (∃ q, p.build = .ok q ∧ (Statement.select q).validate = .ok () ∧
        q.items.map SelectItem.outputName = p.outputNames.map some) ∧
      p.outputNames.Nodup ∧
      ∀ name ∈ p.valueNames, ∀ row, (∀ c, row = some c → c.isFinite = true) →
        ∃ q, p.drillDown row name = .ok q ∧ (Statement.select q).validate = .ok ()) ∧
    ∀ v, firstViolation p.violations = .error v →
      p.build = .error (.invalidQuery v) ∧
      ∀ row name, p.drillDown row name = .error (.invalidQuery v) := by
  constructor
  · intro hvalid
    have h := violations_eq_nil_of_firstViolation hvalid
    refine ⟨⟨p.crossTab, build_eq_ok_iff.mpr ⟨h, rfl⟩, ?_, p.map_outputName_items⟩,
      nodup_outputNames h, fun name hname row hrow => ?_⟩
    · exact Statement.validate_eq_ok_iff.mpr (violations_crossTab h)
    · obtain ⟨field, v, hfind, -, -⟩ := exists_find?_eq_some hname
      have hcell : p.drillDown row name = .ok (p.cellRows row field v) :=
        drillDown_eq_ok_iff.mpr ⟨h, _, hfind, rfl⟩
      exact ⟨_, hcell, Statement.validate_eq_ok_iff.mpr (violations_of_drillDown hcell hrow)⟩
  · intro v hv
    have hrequire : requireValid p.violations = .error (.invalidQuery v) := by
      rw [requireValid, hv]
      rfl
    refine ⟨?_, fun row name => ?_⟩
    · rw [build, hrequire]
      rfl
    · rw [drillDown, hrequire]
      rfl

/-- The sales of each region, in two years and at a low price. -/
def regionalSales : PivotTable :=
  { base := .table "sales", function := .sum, valueField := "amount", rowField := "region"
    columns :=
      [⟨"year", .number, [⟨"y2023", .value (.number (.int 2023))⟩,
        ⟨"y2024", .value (.number (.int 2024))⟩]⟩,
      ⟨"price", .number, [⟨"cheap", .range none (some (.number (.int 100)))⟩]⟩]
    totalName := some "Total" }

/-- The columns of a table with a column for all values, the rows behind a cell of the regions that
are missing, and a table without columns. -/
theorem build_and_drillDown_valid_regionalSales :
    (∃ q, regionalSales.build = .ok q ∧ (Statement.select q).validate = .ok () ∧
      q.items.map SelectItem.outputName =
        [some "region", some "y2023", some "y2024", some "cheap", some "Total"]) ∧
    (∃ q, regionalSales.drillDown none "cheap" = .ok q ∧
      (Statement.select q).validate = .ok ()) ∧
    PivotTable.build { regionalSales with columns := [] } =
      .error (.invalidQuery .pivotWithoutColumns) := by
  have hvalid : firstViolation regionalSales.violations = .ok () := by
    rw [show regionalSales.violations = [] by decide +kernel]
    rfl
  have hinvalid : firstViolation (violations { regionalSales with columns := [] }) =
      .error .pivotWithoutColumns := by
    rw [show violations { regionalSales with columns := [] } = [.pivotWithoutColumns] by
      decide +kernel]
    rfl
  obtain ⟨htable, -, hrows⟩ := (build_and_drillDown_valid regionalSales).1 hvalid
  refine ⟨htable, hrows "cheap" (by decide +kernel) none (by simp), ?_⟩
  exact ((build_and_drillDown_valid { regionalSales with columns := [] }).2 _ hinvalid).1

end PivotTable

end SqlTree
