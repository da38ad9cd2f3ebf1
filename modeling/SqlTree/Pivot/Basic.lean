import SqlTree.Syntax.Build

/-!
# Pivot tables

A pivot table sums up the rows of a source in a table: one row for each value of the row field,
and one column for each named value of the pivoted fields. A cell is the aggregate of the value
field over the rows that belong to both.

* `PivotMatch.condition`: which rows belong to a column;
* `PivotTable.crossTab`: the query for the whole table;
* `PivotTable.cellRows`: the query for the rows behind one cell.
-/

namespace SqlTree

/-- The values of a field that belong to an output column. -/
inductive PivotMatch where
  | value (c : Constant)
  /-- The values from `low` on and before `high`; a missing bound does not limit them. -/
  | range (low high : Option Constant)

/-- A named output column. -/
structure PivotValue where
  name : String
  selects : PivotMatch

/-- A field, the kind of its values, and the output columns that its values make. -/
structure PivotColumn where
  field : String
  kind : DataKind
  values : List PivotValue := []

/-- A pivot table. -/
structure PivotTable where
  base : TableRef
  function : AggregateFunction
  valueField : String
  rowField : String
  columns : List PivotColumn := []
  /-- The name of the column for all values, if there is one. -/
  totalName : Option String := none

/-! ## Building -/

/-- A field with one more output column. -/
def PivotColumn.add (c : PivotColumn) (name : String) (selects : PivotMatch) : PivotColumn :=
  { c with values := c.values ++ [⟨name, selects⟩] }

/-- A pivot table with one more field. -/
def PivotTable.addColumn (p : PivotTable) (c : PivotColumn) : PivotTable :=
  { p with columns := p.columns ++ [c] }

/-! ## Conditions -/

/-- The constants that a match is made of. -/
def PivotMatch.bounds : PivotMatch → List Constant
  | value c => [c]
  | range low high => low.toList ++ high.toList

/-- The tests of a row that a match makes. -/
def PivotMatch.predicates (field : String) : PivotMatch → List Predicate
  | value c => [.compare (.column field) .equal (.constant c)]
  | range low high =>
    low.toList.map (fun c => .compare (.column field) .greaterOrEqual (.constant c)) ++
      high.toList.map fun c => .compare (.column field) .less (.constant c)

/-- The condition on rows whose field has a value that matches. -/
def PivotMatch.condition (field : String) (m : PivotMatch) : Condition :=
  .all (m.predicates field)

namespace PivotTable

/-! ## Columns -/

/-- The named values of all fields, each with its field. -/
def values (p : PivotTable) : List (String × PivotValue) :=
  p.columns.flatMap fun c => c.values.map fun v => (c.field, v)

/-- The names of the output columns, in order. -/
def outputNames (p : PivotTable) : List String :=
  p.rowField :: p.values.map (fun fv => fv.2.name) ++ p.totalName.toList

/-- The first named value of a name, with its field. -/
def find? (p : PivotTable) (name : String) : Option (String × PivotValue) :=
  p.values.find? fun fv => fv.2.name == name

/-! ## Queries -/

/-- The output column of a named value: the value field where the row matches, and null where it
does not, under the aggregate function. -/
def cell (p : PivotTable) (field : String) (v : PivotValue) : SelectItem :=
  (Expr.aggregated p.function
    (.caseWhen [(v.selects.condition field, .column p.valueField)] (some .null))).renamed v.name

/-- The output column for all values. -/
def total (p : PivotTable) (name : String) : SelectItem :=
  (Expr.aggregated p.function (.column p.valueField)).renamed name

/-- The query for the table. -/
def crossTab (p : PivotTable) : Select :=
  { Select.empty with
    items := (Expr.column p.rowField).item :: p.values.map (fun fv => p.cell fv.1 fv.2) ++
      p.totalName.toList.map p.total
    source := ⟨some p.base, []⟩
    groupBy := [{ field := p.rowField }]
    orderBy := [{ field := p.rowField }] }

/-- The test for a value of the row field; without one, the field is null. -/
def rowPredicate (p : PivotTable) : Option Constant → Predicate
  | some c => .compare (.column p.rowField) .equal (.constant c)
  | none => .isNull (.column p.rowField) false

/-- The query for the rows behind a cell. -/
def cellRows (p : PivotTable) (row : Option Constant) (field : String) (v : PivotValue) : Select :=
  { Select.empty with
    source := ⟨some p.base, []⟩
    filter := .all (p.rowPredicate row :: v.selects.predicates field) }

end PivotTable

end SqlTree
