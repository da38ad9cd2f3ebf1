import SqlTree.Error
import SqlTree.Paging.FreshName

/-!
# Pages by row numbers

A database without a clause for offsets gets a page of a query by numbering its rows. The query
becomes three blocks:

* the inner block is the query without its order, its page and its limit; every column has a name,
  and fields that are only sorted by are added as further columns;
* the middle block, `wrapper`, numbers the rows in the order of the query;
* the outer block, `wrapperRowFilter`, keeps the numbers of the page, sorts again, and shows the
  columns of the query.

`Select.numberedBlocks?` is the whole construction.
-/

namespace SqlTree

/-- The alias of the inner block. -/
def wrapperName : String := "wrapper"

/-- The alias of the middle block. -/
def rowFilterName : String := "wrapperRowFilter"

/-- The name of the column that holds the row numbers. -/
def rowNumberName : String := "ROW_NUMBER"

/-! ## Columns of the inner block -/

/-- The columns of a query apart from those that are named like the row numbers. -/
def withoutRowNumber (items : List SelectItem) : List SelectItem :=
  items.filter fun i => !i.isNamed rowNumberName

/-- Names the columns that have no name by their position. `before` are the columns in front of
the list, already named. -/
def namePositions (before : List SelectItem) : List SelectItem → List SelectItem
  | [] => before
  | i :: rest =>
    if i.outputName.isNone ∧ i.expr.isStar = false then
      let name := freshName (before ++ i :: rest) (numberedName "col" (before.length + 1))
      namePositions (before ++ [{ i with aliasName := some name }]) rest
    else namePositions (before ++ [i]) rest

/-- Whether a sort key names the field that a column shows. A key without a table matches the field
of any table. -/
def SortKey.sortsOn (k : SortKey) (i : SelectItem) : Bool :=
  match i.expr with
  | .field table name =>
    name == k.field &&
      match k.table, table with
      | none, _ => true
      | some _, none => false
      | some a, some b => a == b
  | _ => false

/-- The name of the output column that a sort key means: the first column that shows its field, or
else, for a key without a table, a column of that name. -/
def SortKey.outputName? (k : SortKey) (items : List SelectItem) : Option String :=
  ((items.find? k.sortsOn).bind SelectItem.outputName) <|>
    if k.table.isNone then (items.filterMap SelectItem.outputName).find? (· == k.field) else none

/-- Whether the columns include all columns of the table that a sort key is from. -/
def SortKey.isCovered (k : SortKey) (items : List SelectItem) : Bool :=
  items.isEmpty || items.any fun i =>
    match i.expr with
    | .star none => true
    | .star (some t) =>
      match k.table with
      | none => true
      | some own => own == t
    | _ => false

/-- The column that is added for a sort key, under a given name. -/
def SortKey.hiddenItem (k : SortKey) (name : String) : SelectItem :=
  { expr := .field k.table k.field, aliasName := if name = k.field then none else some name }

/-- The columns with those that are added for sort keys, and the name and direction of each sort
key. -/
def placeSortKeys (items : List SelectItem) :
    List SortKey → List SelectItem × List (String × SortDirection)
  | [] => (items, [])
  | k :: ks =>
    match k.outputName? items with
    | some name =>
      let (placed, names) := placeSortKeys items ks
      (placed, (name, k.direction) :: names)
    | none =>
      if k.isCovered items then
        let (placed, names) := placeSortKeys items ks
        (placed, (k.field, k.direction) :: names)
      else
        let name := freshName items k.field
        let (placed, names) := placeSortKeys (items ++ [k.hiddenItem name]) ks
        (placed, (name, k.direction) :: names)

/-! ## Blocks -/

/-- Sort keys on columns of one source. -/
def sortKeysOf (source : String) (names : List (String × SortDirection)) : List SortKey :=
  names.map fun (name, direction) => { field := name, table := some source, direction }

/-- A source that is a query with an alias, without joins. -/
def FromClause.ofQuery (q : Select) (aliasName : String) : FromClause :=
  { base := some { source := .query q, aliasName := some aliasName }, joins := [] }

/-- All columns of a source. -/
def allColumnsOf (source : String) : SelectItem :=
  { expr := .star (some source), aliasName := none }

/-- One column of a source. -/
def columnOf (source name : String) : SelectItem :=
  { expr := .field (some source) name, aliasName := none }

/-- A row count as an expression. -/
def countExpr (n : UInt64) : Expr := .constant (.number (.int (countLiteral n)))

namespace Select

/-- The inner block. -/
def innerBlock (q : Select) (items : List SelectItem) : Select :=
  { q with items, orderBy := [], top := none, page := none }

/-- The block around `inner` that numbers its rows. -/
def middleBlock (inner : Select) (names : List (String × SortDirection)) : Select :=
  { Select.empty with
    items := [allColumnsOf wrapperName,
      { expr := .rowNumber (sortKeysOf wrapperName names), aliasName := some rowNumberName }]
    source := .ofQuery inner wrapperName }

/-- The columns of the outer block: those of the query by name, or all if it has a star. -/
def outerItems (shown : List SelectItem) : List SelectItem :=
  if shown.isEmpty || shown.any (·.expr.isStar) then [allColumnsOf rowFilterName]
  else (shown.filterMap SelectItem.outputName).map (columnOf rowFilterName)

/-- The condition that a row number lies between two counts. -/
def rowsBetween (first last : UInt64) : Condition :=
  { connective := .and
    predicates :=
      [.between (.field (some rowFilterName) rowNumberName) (countExpr first) (countExpr last)
        false]
    groups := [] }

/-- The block around `middle` that keeps the rows of a page. -/
def outerBlock (middle : Select) (shown : List SelectItem)
    (names : List (String × SortDirection)) (first last : UInt64) : Select :=
  { Select.empty with
    items := outerItems shown
    source := .ofQuery middle rowFilterName
    filter := rowsBetween first last
    orderBy := sortKeysOf rowFilterName names }

/-- The blocks that select one page of a query. -/
def numberedBlocks (q : Select) (p : Page) : Select :=
  let shown := namePositions [] (withoutRowNumber q.items)
  let (items, names) := placeSortKeys shown q.orderBy
  outerBlock (middleBlock (q.innerBlock items) names) shown names p.first (p.last q.top)

/-- The query that selects the same rows by row numbers. Without a page it is the query itself; a
page without an order has no numbers. -/
def numberedBlocks? (q : Select) : Except Error Select :=
  match q.page with
  | none => .ok q
  | some p =>
    if q.orderBy.isEmpty then .error (.invalidQuery .pageWithoutOrder)
    else .ok (q.numberedBlocks p)

end Select

end SqlTree
