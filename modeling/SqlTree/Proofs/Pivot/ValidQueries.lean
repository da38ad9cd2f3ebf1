import SqlTree.Pivot.Query
import SqlTree.Proofs.Tree.Violations

/-!
# Valid queries of pivot tables

A pivot table that keeps its rules makes queries that keep theirs. The rule that each named value
has a bound is what gives every arm of a cell a condition.

Results:
* `PivotValue.violations_eq_nil_iff`: a named value has bounds, which are finite and of its kind.
* `PivotTable.violations_crossTab`: the query for a valid table is valid.
* `PivotTable.violations_cellRows`: so is the query for the rows behind a cell, for a finite row
  value or none.
* `PivotTable.build_eq_ok_iff`, `PivotTable.drillDown_eq_ok_iff`: when the queries are returned.
-/

namespace SqlTree

/-! ## Named values -/

/-- The bounds of a named value are at least one, finite and of the kind of the field. -/
structure PivotValue.KeepsRule (kind : DataKind) (v : PivotValue) : Prop where
  hasBounds : v.selects.bounds ≠ []
  isFinite : ∀ c ∈ v.selects.bounds, c.isFinite = true
  kind_eq : ∀ c ∈ v.selects.bounds, c.kind = kind

theorem boundViolations_eq_nil_iff {kind : DataKind} {name : String} {c : Constant} :
    boundViolations kind name c = [] ↔ c.isFinite = true ∧ c.kind = kind := by
  rw [boundViolations, List.append_eq_nil_iff, Constant.violations_eq_nil_iff,
    violationIf_eq_nil, ne_eq, Decidable.not_not]

/-- A named value has no violation exactly if it keeps its rule. -/
theorem PivotValue.violations_eq_nil_iff {kind : DataKind} {v : PivotValue} :
    v.violations kind = [] ↔ v.KeepsRule kind := by
  rw [PivotValue.violations, List.append_eq_nil_iff, violationIf_eq_nil,
    List.flatMap_eq_nil_iff]
  simp only [boundViolations_eq_nil_iff]
  constructor
  · rintro ⟨hbounds, h⟩
    exact ⟨hbounds, fun c hc => (h c hc).1, fun c hc => (h c hc).2⟩
  · intro h
    exact ⟨h.hasBounds, fun c hc => ⟨h.isFinite c hc, h.kind_eq c hc⟩⟩

/-! ## Conditions -/

namespace PivotMatch

variable {field : String} {m : PivotMatch}

/-- A match has one test for each bound. -/
theorem length_predicates (field : String) (m : PivotMatch) :
    (m.predicates field).length = m.bounds.length := by
  cases m <;> simp [predicates, bounds]

theorem violations_of_mem_predicates (h : ∀ c ∈ m.bounds, c.isFinite = true) {p : Predicate}
    (hp : p ∈ m.predicates field) : p.violations = [] := by
  have hcompare (op : CompareOp) {c : Constant} (hc : c ∈ m.bounds) :
      (Predicate.compare (.column field) op (.constant c)).violations = [] := by
    have hfinite : c.violations = [] := Constant.violations_eq_nil_iff c |>.mpr (h c hc)
    simp [Predicate.violations, Expr.column, Expr.violations, hfinite]
  cases m with
  | value c =>
    obtain rfl := List.mem_singleton.mp hp
    exact hcompare .equal List.mem_cons_self
  | range low high =>
    rcases List.mem_append.mp hp with hp | hp
    · obtain ⟨c, hc, rfl⟩ := List.mem_map.mp hp
      exact hcompare .greaterOrEqual (List.mem_append_left _ hc)
    · obtain ⟨c, hc, rfl⟩ := List.mem_map.mp hp
      exact hcompare .less (List.mem_append_right _ hc)

end PivotMatch

theorem Condition.violations_all {predicates : List Predicate}
    (h : ∀ p ∈ predicates, p.violations = []) : (Condition.all predicates).violations = [] := by
  simpa [Condition.all, Condition.violations] using h

namespace PivotTable

variable {p : PivotTable}

/-! ## Valid tables -/

theorem violations_base (h : p.violations = []) : p.base.violations = [] := by
  simp only [violations, List.append_eq_nil_iff] at h
  exact h.1.1.1

/-- The named values of a valid table keep their rule. -/
theorem keepsRule_of_mem_values (h : p.violations = []) {field : String} {v : PivotValue}
    (hv : (field, v) ∈ p.values) : ∃ kind, v.KeepsRule kind := by
  simp only [violations, List.append_eq_nil_iff, List.flatMap_eq_nil_iff] at h
  obtain ⟨c, hc, hv⟩ := List.mem_flatMap.mp hv
  obtain ⟨w, hw, heq⟩ := List.mem_map.mp hv
  obtain ⟨-, rfl⟩ := Prod.mk.inj heq
  have hcolumn := h.2 c hc
  rw [PivotColumn.violations, List.append_eq_nil_iff, List.flatMap_eq_nil_iff] at hcolumn
  exact ⟨c.kind, PivotValue.violations_eq_nil_iff.mp (hcolumn.2 w hw)⟩

/-! ## Queries -/

theorem violations_cell {field : String} {v : PivotValue} {kind : DataKind}
    (h : v.KeepsRule kind) : (p.cell field v).expr.violations = [] := by
  have hcondition : (v.selects.condition field).violations = [] :=
    Condition.violations_all fun _ => PivotMatch.violations_of_mem_predicates h.isFinite
  have hnonempty : (v.selects.condition field).isEmpty = false := by
    have hlength := PivotMatch.length_predicates field v.selects
    have hpos := List.length_pos_iff.mpr h.hasBounds
    have hpredicates : v.selects.predicates field ≠ [] :=
      List.length_pos_iff.mp (by omega)
    simp [PivotMatch.condition, Condition.all, Condition.isEmpty, hpredicates]
  simp [cell, Expr.renamed, Expr.aggregated, Expr.caseWhen, Expr.column, Expr.violations,
    CaseArm.violationsOfAll, hcondition, hnonempty]

/-- The query for a valid table is valid. -/
theorem violations_crossTab (h : p.violations = []) : p.crossTab.violations = [] := by
  have hitems : ∀ i ∈ p.crossTab.items, i.expr.violations = [] := by
    intro i hi
    simp only [crossTab, List.mem_append, List.mem_cons, List.mem_map] at hi
    rcases hi with (rfl | ⟨⟨field, v⟩, hv, rfl⟩) | ⟨name, -, rfl⟩
    · rfl
    · obtain ⟨kind, hrule⟩ := keepsRule_of_mem_values h hv
      exact violations_cell hrule
    · rfl
  have hbase : (FromClause.mk (some p.base) []).violations = [] := by
    simp [FromClause.violations, violations_base h, Join.violationsOfAll]
  have hlist : p.crossTab.items.flatMap (fun i => i.expr.violations) = [] :=
    List.flatMap_eq_nil_iff.mpr hitems
  simp only [crossTab, Select.violations, Select.empty, SelectItem.violationsOfAll_eq_flatMap,
    List.append_eq_nil_iff] at hlist ⊢
  exact ⟨⟨⟨⟨⟨hbase, rfl⟩, rfl⟩, hlist⟩, rfl⟩, rfl⟩

/-- The query for the rows behind a cell of a valid table is valid if the row value is finite or
missing. -/
theorem violations_cellRows (h : p.violations = []) {field : String} {v : PivotValue}
    (hv : (field, v) ∈ p.values) {row : Option Constant}
    (hrow : ∀ c, row = some c → c.isFinite = true) :
    (p.cellRows row field v).violations = [] := by
  obtain ⟨kind, hrule⟩ := keepsRule_of_mem_values h hv
  have hbase : (FromClause.mk (some p.base) []).violations = [] := by
    simp [FromClause.violations, violations_base h, Join.violationsOfAll]
  have htest : (p.rowPredicate row).violations = [] := by
    cases row with
    | none => rfl
    | some c =>
      have hc : c.violations = [] := Constant.violations_eq_nil_iff c |>.mpr (hrow c rfl)
      simp [rowPredicate, Predicate.violations, Expr.column, Expr.violations, hc]
  have hfilter : (Condition.all (p.rowPredicate row :: v.selects.predicates field)).violations =
      [] := by
    refine Condition.violations_all (List.forall_mem_cons.mpr ⟨htest, fun _ => ?_⟩)
    exact PivotMatch.violations_of_mem_predicates hrule.isFinite
  simp only [cellRows, Select.violations, Select.empty, List.append_eq_nil_iff]
  exact ⟨⟨⟨⟨⟨hbase, rfl⟩, rfl⟩, rfl⟩, hfilter⟩, rfl⟩

/-! ## Building -/

/-- The query for a table is returned exactly if the table is valid. -/
theorem build_eq_ok_iff {q : Select} : p.build = .ok q ↔ p.violations = [] ∧ p.crossTab = q := by
  rw [build, requireValid]
  cases p.violations with
  | nil =>
    show (.ok p.crossTab : Except Error Select) = .ok q ↔ _
    simp
  | cons v vs =>
    show (.error (.invalidQuery v) : Except Error Select) = .ok q ↔ _
    simp

/-- The query for the rows behind a cell is returned exactly if the table is valid and has a value
of the name. -/
theorem drillDown_eq_ok_iff {row : Option Constant} {name : String} {q : Select} :
    p.drillDown row name = .ok q ↔
      p.violations = [] ∧ ∃ fv, p.find? name = some fv ∧ p.cellRows row fv.1 fv.2 = q := by
  rw [drillDown, requireValid]
  cases p.violations with
  | nil =>
    cases p.find? name with
    | none =>
      show (.error (.invalidQuery (.pivotValueUnknown name)) : Except Error Select) = .ok q ↔ _
      simp
    | some fv =>
      show (.ok (p.cellRows row fv.1 fv.2) : Except Error Select) = .ok q ↔ _
      simp
  | cons v vs =>
    show (.error (.invalidQuery v) : Except Error Select) = .ok q ↔ _
    simp

/-- A query that is returned for the rows behind a cell is valid if the row value is finite or
missing. -/
theorem violations_of_drillDown {row : Option Constant} {name : String} {q : Select}
    (h : p.drillDown row name = .ok q) (hrow : ∀ c, row = some c → c.isFinite = true) :
    q.violations = [] := by
  obtain ⟨hp, ⟨field, v⟩, hfind, rfl⟩ := drillDown_eq_ok_iff.mp h
  exact violations_cellRows hp (List.mem_of_find?_eq_some hfind) hrow

end PivotTable

end SqlTree
