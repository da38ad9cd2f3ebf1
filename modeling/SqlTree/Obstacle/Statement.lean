import SqlTree.Obstacle.Query
import SqlTree.Token.Statement

/-!
# What a dialect cannot express in a statement

The obstacles of unions, inserts, updates and deletes, in the order in which they are written.
-/

namespace SqlTree

/-- The obstacles in a value that is stored. -/
def valueObstacles (d : Dialect) (e : Expr) : List Error := (e.forDialect d).obstacles d

/-- The obstacles in the condition on the rows that are changed. -/
def filterObstacles (d : Dialect) (c : Condition) : List Error := (c.forDialect d).obstacles d

/-- The obstacles in assigned values. -/
def Assignment.obstacles (d : Dialect) (a : Assignment) : List Error := valueObstacles d a.value

/-- The obstacles in the values that are written for the rows of a bulk insert. -/
def BulkInsert.obstacles (d : Dialect) (b : BulkInsert) : List Error :=
  match b.rows with
  | [] => []
  | first :: rest =>
    (first :: rest).flatMap fun row =>
      (row.valuesOf (first.assignments.map Assignment.field)).flatMap (valueObstacles d)

/-- The obstacles in a statement. -/
def Statement.obstacles (d : Dialect) : Statement → List Error
  | .select q => (q.forDialect d).obstacles d
  | .union u => u.members.flatMap fun m => (m.query.forDialect d).obstacles d
  | .insert i => i.assignments.flatMap (Assignment.obstacles d)
  | .bulkInsert b => b.obstacles d
  | .update u => u.assignments.flatMap (Assignment.obstacles d) ++ filterObstacles d u.filter
  | .delete x => filterObstacles d x.filter

end SqlTree
