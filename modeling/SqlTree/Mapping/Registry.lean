import SqlTree.Mapping.Alias
import SqlTree.Mapping.Basic
import SqlTree.Syntax.Build

/-!
# Registered mappings

The mappings of several record types, at most one for each, and the statements that read and write
their records.

* `Registry.register`, `Registry.get?`: adding and finding mappings;
* `Registry.selectAll`: the query for all records of a type;
* `Registry.insertFor`: the insert for a record of a type.
-/

namespace SqlTree

/-- Mappings of different record types. -/
structure Registry where
  mappings : List TableMapping
  nodup : (mappings.map TableMapping.recordType).Nodup

namespace Registry

/-- No mapping. -/
def empty : Registry := ⟨[], by simp⟩

/-- The mappings of other record types than `name`. -/
def others (r : Registry) (name : String) : List TableMapping :=
  r.mappings.filter fun m => m.recordType != name

theorem nodup_cons_others (r : Registry) (m : TableMapping) :
    ((m :: r.others m.recordType).map TableMapping.recordType).Nodup := by
  simp only [List.map_cons, List.nodup_cons]
  constructor
  · simp [others]
  · exact r.nodup.sublist (List.Sublist.map _ List.filter_sublist)

/-- Adds a mapping, in place of the one for the same record type. -/
def register (r : Registry) (m : TableMapping) : Registry :=
  ⟨m :: r.others m.recordType, r.nodup_cons_others m⟩

/-- The registry of a list of mappings; of several for one record type, the last one counts. -/
def ofList (ms : List TableMapping) : Registry := ms.foldl register empty

/-- The mapping of a record type. -/
def get? (r : Registry) (recordType : String) : Option TableMapping :=
  r.mappings.find? fun m => m.recordType == recordType

/-- The number of mappings. -/
def size (r : Registry) : Nat := r.mappings.length

/-- Whether there is no mapping. -/
def isEmpty (r : Registry) : Bool := r.mappings.isEmpty

/-- The mapping of a record type that has to have one. -/
def require (r : Registry) (recordType : String) : Except Error TableMapping :=
  match r.get? recordType with
  | some m => .ok m
  | none => .error (.unknownRecordType recordType)

/-! ## Statements -/

/-- A column of an aliased table, renamed to its property if the names differ. -/
def selectItem (aliasName : String) (c : ColumnMapping) : SelectItem :=
  if c.column = c.property then (Expr.columnOf aliasName c.column).item
  else (Expr.columnOf aliasName c.column).renamed c.property

/-- The query for the mapped properties of all records, with an alias for the table. -/
def selectAs (m : TableMapping) (aliasName : String) : Select :=
  { Select.empty with
    items := m.mapped.map (selectItem aliasName)
    source := ⟨some ((TableRef.table m.tableName).renamed aliasName), []⟩ }

/-- The query for the mapped properties of all records of a type. The table has the alias of the
mapping or, if it has none, the next one of the session. -/
def selectAll (r : Registry) (recordType : String) (s : AliasSession) :
    Except Error (Select × AliasSession) := do
  let m ← r.require recordType
  match m.aliasName with
  | some aliasName => return (selectAs m aliasName, s)
  | none =>
    let (aliasName, s) := s.next m.tableName
    return (selectAs m aliasName, s)

/-- The assignment for a property; none if the property is ignored. -/
def assignment (m : TableMapping) (p : String × Constant) : Except Error (Option Assignment) :=
  match m.columns.find? fun c => c.property == p.1 with
  | none => .error (.unknownProperty m.recordType p.1)
  | some c => .ok (if c.ignored then none else some ⟨c.column, .constant p.2⟩)

/-- The insert for a record of a type, given by its properties and their values. -/
def insertFor (r : Registry) (recordType : String) (values : List (String × Constant)) :
    Except Error Insert := do
  let m ← r.require recordType
  let assignments ← values.mapM (assignment m)
  return { table := m.tableName, assignments := assignments.reduceOption }

end Registry

end SqlTree
