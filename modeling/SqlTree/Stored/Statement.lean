import SqlTree.Stored.Query
import SqlTree.Syntax.Statement

/-!
# Stored statements

The stored form of statements. A statement is an object with one field, which names its kind.

* `Statement.toValue`, `Statement.ofValue?`: writing and reading statements of any kind.
-/

namespace SqlTree

/-! ## Unions -/

/-- A member of a union as an object. -/
def UnionMember.toValue (m : UnionMember) : Value :=
  .object [("query", m.query.toValue), ("modifier", .string m.modifier.name)]

/-- Reads a stored member of a union. -/
def UnionMember.ofValue? (v : Value) : Option UnionMember := do
  let ⟨r, _⟩ ← v.record? ["query", "modifier"]
  let query ← r.required "query" fun w _ => Select.ofValue? w
  let modifier ← r.withDefault "modifier" .distinct fun w _ =>
    w.name?.bind UnionModifier.ofName?
  return { query, modifier }

/-- A union as an object. -/
def Union.toValue (u : Union) : Value :=
  .object [("members", .array (u.members.map UnionMember.toValue))]

/-- Reads a stored union. -/
def Union.ofValue? (v : Value) : Option Union := do
  let ⟨r, _⟩ ← v.record? ["members"]
  let members ← r.required "members" fun w _ => w.list fun x _ => UnionMember.ofValue? x
  return { members }

/-! ## Changes -/

/-- An assignment as an object. -/
def Assignment.toValue (a : Assignment) : Value :=
  .object [("field", .string a.field), ("value", a.value.toValue)]

/-- Reads a stored assignment. -/
def Assignment.ofValue? (v : Value) : Option Assignment := do
  let ⟨r, _⟩ ← v.record? ["field", "value"]
  let field ← r.required "field" fun w _ => w.string?
  let value ← r.required "value" fun w _ => Expr.ofValue? w
  return { field, value }

/-- Reads stored assignments. -/
def assignmentsOfValue? (v : Value) : Option (List Assignment) :=
  v.list fun w _ => Assignment.ofValue? w

/-- An insert as an object. -/
def Insert.toValue (i : Insert) : Value :=
  .object ([("table", .string i.table)] ++
    Value.fieldIfSome "namespace" .string i.namespaceName ++
    [("terms", .array (i.assignments.map Assignment.toValue))])

/-- Reads a stored insert. -/
def Insert.ofValue? (v : Value) : Option Insert := do
  let ⟨r, _⟩ ← v.record? ["table", "namespace", "terms"]
  let table ← r.required "table" fun w _ => w.string?
  let namespaceName ← r.optional "namespace" fun w _ => w.string?
  let assignments ← r.withDefault "terms" [] fun w _ => assignmentsOfValue? w
  return { table, namespaceName, assignments }

/-- An insert of several rows as an object. -/
def BulkInsert.toValue (b : BulkInsert) : Value :=
  .object [("rows", .array (b.rows.map Insert.toValue))]

/-- Reads a stored insert of several rows. -/
def BulkInsert.ofValue? (v : Value) : Option BulkInsert := do
  let ⟨r, _⟩ ← v.record? ["rows"]
  let rows ← r.required "rows" fun w _ => w.list fun x _ => Insert.ofValue? x
  return { rows }

/-- An update as an object. -/
def Update.toValue (u : Update) : Value :=
  .object ([("table", .string u.table)] ++
    Value.fieldIfSome "namespace" .string u.namespaceName ++
    [("terms", .array (u.assignments.map Assignment.toValue)),
      ("where_clause", u.filter.toValue)])

/-- Reads a stored update. -/
def Update.ofValue? (v : Value) : Option Update := do
  let ⟨r, _⟩ ← v.record? ["table", "namespace", "terms", "where_clause"]
  let table ← r.required "table" fun w _ => w.string?
  let namespaceName ← r.optional "namespace" fun w _ => w.string?
  let assignments ← r.withDefault "terms" [] fun w _ => assignmentsOfValue? w
  let filter ← r.withDefault "where_clause" .empty fun w _ => Condition.ofValue? w
  return { table, namespaceName, assignments, filter }

/-- A delete as an object. -/
def Delete.toValue (d : Delete) : Value :=
  .object ([("table", .string d.table)] ++
    Value.fieldIfSome "namespace" .string d.namespaceName ++
    [("where_clause", d.filter.toValue)])

/-- Reads a stored delete. -/
def Delete.ofValue? (v : Value) : Option Delete := do
  let ⟨r, _⟩ ← v.record? ["table", "namespace", "where_clause"]
  let table ← r.required "table" fun w _ => w.string?
  let namespaceName ← r.optional "namespace" fun w _ => w.string?
  let filter ← r.withDefault "where_clause" .empty fun w _ => Condition.ofValue? w
  return { table, namespaceName, filter }

/-! ## Statements -/

namespace Statement

/-- The stored form of a statement without its kind. -/
def content : Statement → Value
  | .select q => q.toValue
  | .union u => u.toValue
  | .insert i => i.toValue
  | .bulkInsert b => b.toValue
  | .update u => u.toValue
  | .delete d => d.toValue

/-- The stored form of a statement. -/
def toValue (s : Statement) : Value := .tagged s.kind s.content

/-- Reads the stored form of a statement of a named kind. -/
def ofContent? (kind : String) (v : Value) : Option Statement :=
  match kind with
  | "select" => (Select.ofValue? v).map .select
  | "union" => (Union.ofValue? v).map .union
  | "insert" => (Insert.ofValue? v).map .insert
  | "bulk_insert" => (BulkInsert.ofValue? v).map .bulkInsert
  | "update" => (Update.ofValue? v).map .update
  | "delete" => (Delete.ofValue? v).map .delete
  | _ => none

/-- Reads a stored statement. -/
def ofValue? (v : Value) : Option Statement :=
  match v.variant? with
  | some (kind, some ⟨w, _⟩) => ofContent? kind w
  | _ => none

end Statement

end SqlTree
