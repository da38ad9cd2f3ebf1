import SqlTree.Proofs.Conditions.Evaluation
import SqlTree.Proofs.Pivot.OutputNames

/-!
# The rows behind a cell

A cell of a pivot table sums up a case expression over the rows of a group, and another query shows
the rows behind it. Both are made from one match, but the cell has it as the condition of its arm,
under the group, and the query has its tests behind that of the row field. They agree on every row,
whatever comparisons are worth.

* `PivotTable.InGroup`: the rows of a group;
* `PivotTable.cellItem`: an output column that sums up the value field where a condition holds.

Results:
* `PivotTable.truth_rowPredicate`: the test of the row field holds in the rows of its group.
* `PivotTable.selected_cellRows`: the query for the rows behind a cell selects the rows of the group
  that match.
* `PivotTable.aggregate_cell_eq`: the cell is the aggregate of the value field over these rows.
* `PivotTable.drillDown_rows_of_cell`: both for the queries of a valid table, and an unknown name is
  an error.
-/

namespace SqlTree

namespace PivotTable

variable {ρ V : Type} (M : Evaluation ρ V) {p : PivotTable}

/-! ## Groups -/

/-- A row belongs to the group of a value if its row field is equal to the value. Without a value,
the row field is missing. -/
def InGroup (p : PivotTable) (row : ρ) : Option Constant → Prop
  | some c => M.compare .equal (M.value row (.column p.rowField)) (M.value row (.constant c)) = .yes
  | none => M.value row (.column p.rowField) = none

instance (p : PivotTable) (row : ρ) (key : Option Constant) : Decidable (p.InGroup M row key) := by
  cases key <;> unfold InGroup <;> infer_instance

/-- The rows of a group. -/
def group (p : PivotTable) (key : Option Constant) (rows : List ρ) : List ρ :=
  rows.filter fun row => p.InGroup M row key

/-- The test of the row field holds in the rows of its group, and in no others. -/
theorem truth_rowPredicate (row : ρ) (key : Option Constant) :
    M.truth row (p.rowPredicate key) = .yes ↔ p.InGroup M row key := by
  cases key with
  | some c => rfl
  | none =>
    rw [rowPredicate, Evaluation.truth, InGroup]
    cases M.value row (.column p.rowField) <;> simp

/-! ## Cells -/

/-- An output column that sums up the value field in the rows where a condition holds. -/
def cellItem (p : PivotTable) (condition : Condition) (name : String) : SelectItem :=
  ⟨.aggregate p.function (some (.case [⟨condition, .column p.valueField⟩] (some .null))) false,
    some name⟩

theorem condition_eq_yes_iff {field : String} {v : PivotValue} {kind : DataKind}
    (h : v.KeepsRule kind) (row : ρ) :
    M.truth? row (v.selects.condition field) = some .yes ↔
      ∀ t ∈ v.selects.predicates field, M.truth row t = .yes := by
  rw [PivotMatch.condition, Evaluation.truth?_all_eq_yes_iff]
  refine and_iff_right fun hnil => h.hasBounds ?_
  rw [← List.length_eq_zero_iff, ← PivotMatch.length_predicates field, hnil, List.length_nil]

/-- The query for the rows behind a cell selects the rows of the group in which the condition of the
cell holds. -/
theorem selected_cellRows {field : String} {v : PivotValue} {kind : DataKind}
    (h : v.KeepsRule kind) (key : Option Constant) (rows : List ρ) :
    M.selected (p.cellRows key field v).filter rows =
      (p.group M key rows).filter fun row =>
        M.truth? row (v.selects.condition field) = some .yes := by
  rw [Evaluation.selected, group, List.filter_filter]
  refine List.filter_congr fun row _ => ?_
  rw [Bool.eq_iff_iff, cellRows, Evaluation.keeps_all_iff, List.forall_mem_cons,
    truth_rowPredicate, Bool.and_eq_true, decide_eq_true_iff, decide_eq_true_iff,
    condition_eq_yes_iff M h, and_comm]

/-- A cell over the rows of a group is the aggregate of the value field over the rows behind it. -/
theorem aggregate_cell_eq {field : String} {v : PivotValue} {kind : DataKind}
    (h : v.KeepsRule kind) (name : String) (key : Option Constant) (rows : List ρ) {β : Type}
    (aggregate : AggregateFunction → List V → β) :
    M.aggregate? aggregate (p.group M key rows)
        (p.cellItem (v.selects.condition field) name).expr =
      M.aggregate? aggregate (M.selected (p.cellRows key field v).filter rows)
        (.aggregate p.function (some (.column p.valueField)) false) := by
  have hvalues : M.values (p.group M key rows)
      (.case [⟨v.selects.condition field, .column p.valueField⟩] (some .null)) =
      M.values (M.selected (p.cellRows key field v).filter rows) (.column p.valueField) := by
    rw [Evaluation.values_caseWhen, selected_cellRows M h]
  rw [cellItem, Evaluation.aggregate?, Evaluation.aggregate?, hvalues]

/-! ## Queries of valid tables -/

/-- The columns of the query for a table, of which the names are different, hold one of the name of
a value. -/
theorem filter_items_eq (h : p.violations = []) {field : String} {v : PivotValue}
    (hv : (field, v) ∈ p.values) :
    p.crossTab.items.filter (fun i => i.outputName = some v.name) =
      [p.cellItem (v.selects.condition field) v.name] := by
  have hnames : (p.crossTab.items.map SelectItem.outputName).Nodup := by
    rw [map_outputName_items]
    exact (nodup_outputNames h).map fun _ _ => Option.some.inj
  have hcell : p.cell field v ∈ p.crossTab.items :=
    List.mem_append_left _ (List.mem_cons_of_mem _ (List.mem_map_of_mem hv))
  exact filter_eq_singleton hnames hcell

/-- In the query for a valid pivot table, exactly one column has the name of a value. It sums up the
value field under a condition. The query for the rows behind its cell in a group reads the same
source and has no other clause than its condition, which selects the rows of the group where the
condition of the column is true. So the cell is the aggregate of the value field over these rows,
for each aggregate of the values that are not missing. An unknown name is an error. -/
theorem drillDown_rows_of_cell (h : p.violations = []) :
    (∀ name ∈ p.valueNames, ∀ key, ∃ table cellRows condition,
      p.build = .ok table ∧ p.drillDown key name = .ok cellRows ∧
      table = { Select.empty with
        items := table.items, source := ⟨some p.base, []⟩
        groupBy := [{ field := p.rowField }], orderBy := [{ field := p.rowField }] } ∧
      cellRows = { Select.empty with
        source := ⟨some p.base, []⟩, filter := cellRows.filter } ∧
      table.items.filter (fun i => i.outputName = some name) = [p.cellItem condition name] ∧
      ∀ {ρ V : Type} (M : Evaluation ρ V) (rows : List ρ),
        ((p.group M key rows).filter fun row => M.truth? row condition = some .yes) =
          M.selected cellRows.filter rows ∧
        ∀ {β : Type} (aggregate : AggregateFunction → List V → β),
          M.aggregate? aggregate (p.group M key rows) (p.cellItem condition name).expr =
            M.aggregate? aggregate (M.selected cellRows.filter rows)
              (.aggregate p.function (some (.column p.valueField)) false)) ∧
    ∀ name, name ∉ p.valueNames → ∀ key,
      p.drillDown key name = .error (.invalidQuery (.pivotValueUnknown name)) := by
  constructor
  · intro name hname key
    obtain ⟨field, v, hfind, hv, rfl⟩ := exists_find?_eq_some hname
    obtain ⟨kind, hrule⟩ := keepsRule_of_mem_values h hv
    refine ⟨p.crossTab, p.cellRows key field v, v.selects.condition field,
      build_eq_ok_iff.mpr ⟨h, rfl⟩, drillDown_eq_ok_iff.mpr ⟨h, _, hfind, rfl⟩, rfl, rfl,
      filter_items_eq h hv, fun M rows => ⟨(selected_cellRows M hrule key rows).symm, ?_⟩⟩
    exact aggregate_cell_eq M hrule v.name key rows
  · intro name hname key
    rw [drillDown, h, find?_eq_none_iff.mpr hname]
    rfl

/-- Sales by region, year, price and amount, where each of them may be missing. A comparison with
what is missing is neither true nor false. -/
def salesEvaluation :
    Evaluation (Option Int × Option Int × Option Int × Option Int) Int where
  read e row :=
    match e with
    | .field _ "region" => row.1
    | .field _ "year" => row.2.1
    | .field _ "price" => row.2.2.1
    | .field _ "amount" => row.2.2.2
    | .constant (.number (.int n)) => some n.toInt
    | _ => none
  compare op a b :=
    match op, a, b with
    | .equal, some a, some b => if a = b then .yes else .no
    | .less, some a, some b => if a < b then .yes else .no
    | _, _, _ => .unknown
  test _ _ := .unknown

/-- Sales in two years: one without a region, one without a price and one without an amount. -/
def someSales : List (Option Int × Option Int × Option Int × Option Int) :=
  [(some 1, some 2023, some 50, some 10), (some 1, some 2024, some 150, some 20),
    (some 1, some 2024, none, some 30), (none, some 2024, some 70, some 40),
    (some 1, some 2024, some 80, none), (some 1, some 2024, some 90, some 5)]

/-- The cheap sales of the first region are three, two of them with an amount. -/
theorem drillDown_rows_of_cell_someSales :
    ∃ table cellRows condition, regionalSales.build = .ok table ∧
      regionalSales.drillDown (some (.number (.int 1))) "cheap" = .ok cellRows ∧
      table.items.filter (fun i => i.outputName = some "cheap") =
        [regionalSales.cellItem condition "cheap"] ∧
      salesEvaluation.selected cellRows.filter someSales =
        [(some 1, some 2023, some 50, some 10), (some 1, some 2024, some 80, none),
          (some 1, some 2024, some 90, some 5)] ∧
      salesEvaluation.aggregate? (fun _ amounts => amounts.foldl (· + ·) 0)
        (regionalSales.group salesEvaluation (some (.number (.int 1))) someSales)
        (regionalSales.cellItem condition "cheap").expr = some 15 := by
  obtain ⟨hcells, -⟩ := drillDown_rows_of_cell (p := regionalSales) (by decide +kernel)
  obtain ⟨table, cellRows, condition, hbuild, hdrill, -, -, hitem, hrows⟩ :=
    hcells "cheap" (by decide +kernel) (some (.number (.int 1)))
  obtain ⟨-, fv, hfind, rfl⟩ := drillDown_eq_ok_iff.mp hdrill
  obtain rfl : ("price", ⟨"cheap", .range none (some (.number (.int 100)))⟩) = fv :=
    Option.some.inj hfind
  have hselected : salesEvaluation.selected (regionalSales.cellRows (some (.number (.int 1)))
      "price" ⟨"cheap", .range none (some (.number (.int 100)))⟩).filter someSales =
        [(some 1, some 2023, some 50, some 10), (some 1, some 2024, some 80, none),
          (some 1, some 2024, some 90, some 5)] := by
    decide +kernel
  have hsum := (hrows salesEvaluation someSales).2 fun _ amounts => amounts.foldl (· + ·) 0
  rw [hselected] at hsum
  exact ⟨table, _, condition, hbuild, hdrill, hitem, hselected, hsum⟩

end PivotTable

end SqlTree
