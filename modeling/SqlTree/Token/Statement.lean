import SqlTree.Paging.Expansion
import SqlTree.Syntax.Statement
import SqlTree.Token.Query

/-!
# The tokens of statements

Unions, inserts, updates and deletes as tokens. An insert of several rows lists them after
`VALUES` or, where a dialect has no row lists, selects each row and joins the rows by `UNION ALL`.
All queries in a statement are written as the dialect has them, with their pages expanded where it
has no clause for pages.
-/

namespace SqlTree

open Token

/-! ## Unions -/

/-- The tokens of a member. A trailing limit would bind to the whole union, so a limited query is
put in parentheses where limits are trailing, also if its page is expanded to blocks that contain
the limit. -/
def UnionMember.tokens (d : Dialect) (m : UnionMember) : List Token :=
  let query := (m.query.forDialect d).tokens d
  if m.query.top.isSome ∧ d.topPlace = .trailing then parens query else query

/-- The words that connect a member to the one before it, and the member. -/
def UnionMember.words (d : Dialect) (m : UnionMember) : List (List Token) :=
  [[keyword .UNION]] ++ wordIf (m.modifier = .all) .ALL ++ [m.tokens d]

/-- The tokens of a union. -/
def Union.tokens (d : Dialect) (u : Union) : List Token :=
  match u.members with
  | [] => []
  | m :: ms => Token.words (m.tokens d :: ms.flatMap (UnionMember.words d))

/-! ## Values and filters -/

/-- The tokens of a value that is stored. -/
def valueTokens (d : Dialect) (e : Expr) : List Token := (e.forDialect d).tokens d

/-- The words of the condition on the rows that are changed. -/
def filterWords (d : Dialect) (c : Condition) : List (List Token) :=
  phrase .WHERE c.isEmpty ((c.forDialect d).tokens d)

/-! ## Inserts -/

/-- A list of fields in parentheses. -/
def fieldTokens (fields : List String) : List Token :=
  parens (commaList (fields.map fun f => [ident f]))

/-- A list of values in parentheses. -/
def rowTokens (d : Dialect) (values : List Expr) : List Token :=
  parens (commaList (values.map (valueTokens d)))

/-- The words of an insert before its values. -/
def insertWords (table : String) (namespaceName : Option String) (fields : List String) :
    List (List Token) :=
  [[keyword .INSERT], [keyword .INTO], [qualified namespaceName table], fieldTokens fields]

/-- The tokens of an insert. -/
def Insert.tokens (d : Dialect) (i : Insert) : List Token :=
  Token.words (insertWords i.table i.namespaceName (i.assignments.map Assignment.field) ++
    [[keyword .VALUES], rowTokens d (i.assignments.map Assignment.value)])

/-- The values of a row in the order of the given fields; a field without a value is null. -/
def Insert.valuesOf (i : Insert) (fields : List String) : List Expr :=
  fields.map fun f => (i.valueOf? f).getD .null

/-- The words that select a row of values. -/
def selectRowWords (d : Dialect) (values : List Expr) : List (List Token) :=
  [[keyword .SELECT], commaList (values.map (valueTokens d)), [keyword .FROM], [keyword .DUAL]]

/-- The words of rows after the first one, each connected to the rows before it. -/
def unionRowWords (d : Dialect) (rows : List (List Expr)) : List (List Token) :=
  rows.flatMap fun values => [[keyword .UNION], [keyword .ALL]] ++ selectRowWords d values

/-- The words of the rows of an insert. -/
def rowsWords (d : Dialect) : List (List Expr) → List (List Token)
  | [] => []
  | row :: rows =>
    if d.hasRowLists then
      [[keyword .VALUES], commaList ((row :: rows).map (rowTokens d))]
    else selectRowWords d row ++ unionRowWords d rows

/-- The tokens of an insert of several rows. The first row gives the table and the order of the
fields. -/
def BulkInsert.tokens (d : Dialect) (b : BulkInsert) : List Token :=
  match b.rows with
  | [] => []
  | first :: rest =>
    let fields := first.assignments.map Assignment.field
    Token.words (insertWords first.table first.namespaceName fields ++
      rowsWords d ((first :: rest).map fun row => row.valuesOf fields))

/-! ## Updates and deletes -/

/-- The tokens of an assignment. -/
def Assignment.tokens (d : Dialect) (a : Assignment) : List Token :=
  Token.words [[ident a.field], [symbol .equal], valueTokens d a.value]

/-- The tokens of an update. -/
def Update.tokens (d : Dialect) (u : Update) : List Token :=
  Token.words ([[keyword .UPDATE], [qualified u.namespaceName u.table], [keyword .SET],
    commaList (u.assignments.map (Assignment.tokens d))] ++ filterWords d u.filter)

/-- The tokens of a delete. -/
def Delete.tokens (d : Dialect) (x : Delete) : List Token :=
  Token.words ([[keyword .DELETE], [keyword .FROM], [qualified x.namespaceName x.table]] ++
    filterWords d x.filter)

/-- The tokens of a statement. -/
def Statement.tokens (d : Dialect) : Statement → List Token
  | .select q => (q.forDialect d).tokens d
  | .union u => u.tokens d
  | .insert i => i.tokens d
  | .bulkInsert b => b.tokens d
  | .update u => u.tokens d
  | .delete x => x.tokens d

end SqlTree
