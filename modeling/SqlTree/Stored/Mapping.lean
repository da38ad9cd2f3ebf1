import SqlTree.Data.Value
import SqlTree.Mapping.Basic

/-!
# Stored mappings

The stored form of table mappings and of their columns.
-/

namespace SqlTree

namespace ColumnMapping

/-- A column as an object. -/
def toValue (c : ColumnMapping) : Value :=
  .object
    [("property", .string c.property), ("column", .string c.column), ("ignored", .bool c.ignored)]

/-- Reads a stored column. -/
def ofValue? (v : Value) : Option ColumnMapping := do
  let ⟨r, _⟩ ← v.record? ["property", "column", "ignored"]
  let property ← r.required "property" fun w _ => w.string?
  let column ← r.required "column" fun w _ => w.string?
  let ignored ← r.withDefault "ignored" false fun w _ => w.bool?
  return { property, column, ignored }

end ColumnMapping

namespace TableMapping

/-- A mapping as an object. -/
def toValue (m : TableMapping) : Value :=
  .object
    ([("record_type", .string m.recordType), ("table_name", .string m.tableName)] ++
      Value.fieldIfSome "table_alias" .string m.aliasName ++
      [("columns", .array (m.columns.map ColumnMapping.toValue))])

/-- Reads a stored mapping. -/
def ofValue? (v : Value) : Option TableMapping := do
  let ⟨r, _⟩ ← v.record? ["record_type", "table_name", "table_alias", "columns"]
  let recordType ← r.required "record_type" fun w _ => w.string?
  let tableName ← r.required "table_name" fun w _ => w.string?
  let aliasName ← r.optional "table_alias" fun w _ => w.string?
  let columns ← r.withDefault "columns" [] fun w _ => w.list fun x _ => ColumnMapping.ofValue? x
  return { recordType, tableName, aliasName, columns }

end TableMapping

end SqlTree
