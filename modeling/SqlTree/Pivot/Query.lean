import SqlTree.Pivot.Basic
import SqlTree.Rendering

/-!
# Queries of valid pivot tables

The rules of pivot tables, and the queries of those that keep them.

* `PivotTable.violations`: all places where a pivot table breaks a rule;
* `PivotTable.build`: the query for a valid table;
* `PivotTable.drillDown`: the query for the rows behind a cell of a valid table.
-/

namespace SqlTree

/-! ## Rules -/

/-- The names of a list that are among the names before them or in `seen`. -/
def repeatedNames (seen : List String) : List String → List String
  | [] => []
  | n :: ns => if n ∈ seen then n :: repeatedNames seen ns else repeatedNames (n :: seen) ns

/-- The violations of a bound of a named value: it is finite and of the kind of its field. -/
def boundViolations (kind : DataKind) (name : String) (c : Constant) : List Violation :=
  c.violations ++ violationIf (c.kind ≠ kind) (.pivotKindDiffers name kind c.kind)

/-- The violations in a named value, which has a bound. -/
def PivotValue.violations (kind : DataKind) (v : PivotValue) : List Violation :=
  violationIf (v.selects.bounds = []) (.pivotRangeUnbounded v.name) ++
    v.selects.bounds.flatMap (boundViolations kind v.name)

/-- The violations in a field, which has named values. -/
def PivotColumn.violations (c : PivotColumn) : List Violation :=
  violationIf (c.values.isEmpty = true) (.pivotColumnWithoutValues c.field) ++
    c.values.flatMap (PivotValue.violations c.kind)

namespace PivotTable

/-- The violations in a pivot table. It has columns, and all output names are different. -/
def violations (p : PivotTable) : List Violation :=
  p.base.violations ++ violationIf (p.columns.isEmpty = true) .pivotWithoutColumns ++
    (repeatedNames [] p.outputNames).map .pivotNameTwice ++
    p.columns.flatMap PivotColumn.violations

/-! ## Queries -/

/-- The query for a valid table. -/
def build (p : PivotTable) : Except Error Select := do
  requireValid p.violations
  return p.crossTab

/-- The query for the rows behind the cell of a row and a named value of a valid table. -/
def drillDown (p : PivotTable) (row : Option Constant) (name : String) : Except Error Select := do
  requireValid p.violations
  match p.find? name with
  | some (field, v) => return p.cellRows row field v
  | none => throw (.invalidQuery (.pivotValueUnknown name))

end PivotTable

end SqlTree
