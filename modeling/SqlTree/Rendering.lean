import SqlTree.Obstacle.Statement
import SqlTree.Validity.Statement

/-!
# Rendering

A statement becomes SQL text in three steps: it is checked; the constructs are looked for that the
dialect lacks; and if there are none, the tokens of the statement are spelled out. Pages are
expanded into blocks where the dialect has no clause for them.

* `Statement.render`: the tokens of a statement, or what keeps a dialect from having them;
* `Statement.sqlUnchecked`: the text of a statement, valid or not;
* `Statement.sql`: the text of a valid statement;
* `Select.rowCount`, `Select.paged`: the query that counts rows, and the query that is run for a
  page.
-/

namespace SqlTree

/-- Success if nothing stands in the way, else the first obstacle. -/
def firstObstacle : List Error → Except Error Unit
  | [] => .ok ()
  | e :: _ => .error e

/-- Success if a tree is valid, else its first violation as an error. -/
def requireValid (violations : List Violation) : Except Error Unit :=
  (firstViolation violations).mapError .invalidQuery

/-! ## Trees as they are -/

/-- The tokens of an expression, unless the dialect cannot express it. -/
def Expr.render (d : Dialect) (e : Expr) : Except Error (List Token) :=
  let e := e.forDialect d
  (firstObstacle (e.obstacles d)).map fun _ => e.tokens d

/-- The tokens of a predicate, unless the dialect cannot express it. -/
def Predicate.render (d : Dialect) (p : Predicate) : Except Error (List Token) :=
  let p := p.forDialect d
  (firstObstacle (p.obstacles d)).map fun _ => p.tokens d

/-- The tokens of a condition, unless the dialect cannot express it. -/
def Condition.render (d : Dialect) (c : Condition) : Except Error (List Token) :=
  let c := c.forDialect d
  (firstObstacle (c.obstacles d)).map fun _ => c.tokens d

/-- The tokens of a source, unless the dialect cannot express it. -/
def TableRef.render (d : Dialect) (tableSpace : Option String) (t : TableRef) :
    Except Error (List Token) :=
  let t := t.forDialect d
  (firstObstacle (t.obstacles d)).map fun _ => t.tokens d tableSpace

/-- The tokens of the sources of a query, unless the dialect cannot express them. -/
def FromClause.render (d : Dialect) (tableSpace : Option String) (f : FromClause) :
    Except Error (List Token) :=
  let f := f.forDialect d
  (firstObstacle (f.obstacles d)).map fun _ => Token.words (f.words d tableSpace)

/-- The tokens of an output column, unless the dialect cannot express it. -/
def SelectItem.render (d : Dialect) (i : SelectItem) : Except Error (List Token) :=
  let i := i.forDialect d
  (firstObstacle (i.expr.obstacles d)).map fun _ => i.tokens d

/-- The tokens of a statement, unless the dialect cannot express it. -/
def Statement.render (d : Dialect) (s : Statement) : Except Error (List Token) :=
  (firstObstacle (s.obstacles d)).map fun _ => s.tokens d

/-- The text of a statement, valid or not. -/
def Statement.sqlUnchecked (d : Dialect) (s : Statement) : Except Error String :=
  (s.render d).map (Token.listText d)

/-! ## Valid statements -/

/-- The text of a valid statement. -/
def Statement.sql (d : Dialect) (s : Statement) : Except Error String := do
  requireValid s.violations
  s.sqlUnchecked d

/-- The text of a valid query. -/
def Select.sql (d : Dialect) (q : Select) : Except Error String := (Statement.select q).sql d

/-! ## Counting and paging -/

/-- The query that counts the rows of a query. Order and page play no part; a limit does. -/
def Select.rowCount (q : Select) : Select :=
  { Select.empty with
    items := [{ expr := .aggregate .count none false, aliasName := some "cnt" }]
    source := .ofQuery { q with orderBy := [], page := none } "t" }

/-- The text of the query that counts the rows of a valid query. -/
def Select.rowCountSql (d : Dialect) (q : Select) : Except Error String := do
  requireValid q.violations
  (Statement.select q.rowCount).sqlUnchecked d

/-- The query that a dialect runs for a page of a valid query. -/
def Select.paged (d : Dialect) (q : Select) : Except Error Select := do
  requireValid q.violations
  if d.expandsPages then q.numberedBlocks? else .ok q

end SqlTree
