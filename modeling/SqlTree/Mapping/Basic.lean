/-!
# Table mappings

A table mapping says in which table the records of a type are stored, and in which column each of
their properties. A property may be ignored; it is then neither read nor written.
-/

namespace SqlTree

/-- A property and the column that stores it. -/
structure ColumnMapping where
  property : String
  column : String
  ignored : Bool := false
deriving DecidableEq

/-- A record type and the table that stores its records. -/
structure TableMapping where
  recordType : String
  tableName : String
  aliasName : Option String := none
  columns : List ColumnMapping := []
deriving DecidableEq

namespace TableMapping

/-! ## Building -/

/-- A mapping with an alias for its table. -/
def withAlias (m : TableMapping) (aliasName : String) : TableMapping :=
  { m with aliasName := some aliasName }

/-- A mapping with one more column. -/
def addColumn (m : TableMapping) (property column : String) : TableMapping :=
  { m with columns := m.columns ++ [{ property, column }] }

/-- A mapping with one more ignored property. -/
def ignore (m : TableMapping) (property : String) : TableMapping :=
  { m with columns := m.columns ++ [{ property, column := property, ignored := true }] }

/-! ## Columns -/

/-- The columns of the properties that are not ignored. -/
def mapped (m : TableMapping) : List ColumnMapping := m.columns.filter fun c => !c.ignored

/-- The first column that stores a property. -/
def columnFor? (m : TableMapping) (property : String) : Option String :=
  (m.columns.find? fun c => c.property == property && !c.ignored).map ColumnMapping.column

end TableMapping

end SqlTree
