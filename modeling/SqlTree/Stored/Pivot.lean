import SqlTree.Pivot.Basic
import SqlTree.Stored.Query

/-!
# Stored pivot tables

The stored form of pivot tables, their fields and the matches of their values.
-/

namespace SqlTree

/-- The stored form of a match. -/
def PivotMatch.toValue : PivotMatch → Value
  | value c => .tagged "scalar" c.toValue
  | range low high =>
    .tagged "range" (.object
      (Value.fieldIfSome "low" Constant.toValue low ++
        Value.fieldIfSome "high" Constant.toValue high))

/-- Reads a stored match. -/
def PivotMatch.ofValue? (v : Value) : Option PivotMatch :=
  match v.variant? with
  | some ("scalar", some ⟨w, _⟩) => (Constant.ofValue? w).map .value
  | some ("range", some ⟨w, _⟩) =>
    if w.isRecord ["low", "high"] then do
      let low ← w.optional "low" fun u _ => Constant.ofValue? u
      let high ← w.optional "high" fun u _ => Constant.ofValue? u
      return .range low high
    else none
  | _ => none

/-- A named value as an object. -/
def PivotValue.toValue (v : PivotValue) : Value :=
  .object [("name", .string v.name), ("matcher", v.selects.toValue)]

/-- Reads a stored named value. -/
def PivotValue.ofValue? (v : Value) : Option PivotValue := do
  let ⟨r, _⟩ ← v.record? ["name", "matcher"]
  let name ← r.required "name" fun w _ => w.string?
  let selects ← r.required "matcher" fun w _ => PivotMatch.ofValue? w
  return { name, selects }

/-- A field with its values as an object. -/
def PivotColumn.toValue (c : PivotColumn) : Value :=
  .object
    [("field", .string c.field), ("kind", .string c.kind.name),
      ("values", .array (c.values.map PivotValue.toValue))]

/-- Reads a stored field with its values. -/
def PivotColumn.ofValue? (v : Value) : Option PivotColumn := do
  let ⟨r, _⟩ ← v.record? ["field", "kind", "values"]
  let field ← r.required "field" fun w _ => w.string?
  let kind ← r.required "kind" fun w _ => w.name?.bind DataKind.ofName?
  let values ← r.required "values" fun w _ => w.list fun x _ => PivotValue.ofValue? x
  return { field, kind, values }

namespace PivotTable

/-- A pivot table as an object. -/
def toValue (p : PivotTable) : Value :=
  .object
    ([("base", p.base.toValue), ("function", .string p.function.name),
      ("value_field", .string p.valueField), ("row_field", .string p.rowField),
      ("columns", .array (p.columns.map PivotColumn.toValue))] ++
      Value.fieldIfSome "total_column" .string p.totalName)

/-- Reads a stored pivot table. -/
def ofValue? (v : Value) : Option PivotTable := do
  let ⟨r, _⟩ ← v.record?
    ["base", "function", "value_field", "row_field", "columns", "total_column"]
  let base ← r.required "base" fun w _ => TableRef.ofValue? w
  let function ← r.required "function" fun w _ => w.name?.bind AggregateFunction.ofName?
  let valueField ← r.required "value_field" fun w _ => w.string?
  let rowField ← r.required "row_field" fun w _ => w.string?
  let columns ← r.withDefault "columns" [] fun w _ => w.list fun x _ => PivotColumn.ofValue? x
  let totalName ← r.optional "total_column" fun w _ => w.string?
  return { base, function, valueField, rowField, columns, totalName }

end PivotTable

end SqlTree
