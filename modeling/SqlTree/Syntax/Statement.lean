import SqlTree.Syntax.Expr

/-!
# Statements

Unions of queries, the statements that change rows, and the sum of all kinds of statements.
-/

namespace SqlTree

/-- A query of a union. Its modifier belongs to the connection with the query before it. -/
structure UnionMember where
  query : Select
  modifier : UnionModifier

/-- The rows of several queries. -/
structure Union where
  members : List UnionMember

/-- A field and the value it gets. -/
structure Assignment where
  field : String
  value : Expr

/-- A new row of a table. -/
structure Insert where
  table : String
  namespaceName : Option String := none
  assignments : List Assignment := []

/-- The value that the first assignment to a field gives it. -/
def Insert.valueOf? (i : Insert) (field : String) : Option Expr :=
  (i.assignments.find? fun a => a.field == field).map Assignment.value

/-- Several new rows of one table. -/
structure BulkInsert where
  rows : List Insert

/-- New values in the rows that satisfy a condition. -/
structure Update where
  table : String
  namespaceName : Option String := none
  assignments : List Assignment := []
  filter : Condition := .empty

/-- Removal of the rows that satisfy a condition. -/
structure Delete where
  table : String
  namespaceName : Option String := none
  filter : Condition := .empty

/-- A statement of any kind. -/
inductive Statement where
  | select (q : Select)
  | union (u : Union)
  | insert (i : Insert)
  | bulkInsert (b : BulkInsert)
  | update (u : Update)
  | delete (d : Delete)

/-- The name of a statement's kind. -/
def Statement.kind : Statement → String
  | .select _ => "select"
  | .union _ => "union"
  | .insert _ => "insert"
  | .bulkInsert _ => "bulk_insert"
  | .update _ => "update"
  | .delete _ => "delete"

end SqlTree
