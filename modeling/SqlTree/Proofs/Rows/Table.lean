import SqlTree.Paging.NumberedBlocks
import SqlTree.Proofs.Rows.Order
import SqlTree.Proofs.Rows.Sorting

/-!
# What queries return

A meaning for the queries that page numbering builds. Which rows the sources, conditions and groups
of the innermost query leave is left open, and so are the values of its expressions in a row and the
order of values. Every further query is a block around one other query: it keeps rows, numbers them,
sorts them and shows columns, all by the names of the columns of the query inside. A name has a
meaning only if exactly one column has it, in any case of the letters.

* `Select.bare`: what the rows of an innermost query depend on;
* `Select.fromRows?`: the result of a query over given rows;
* `Select.fromBlock?`: the result of a block over the rows of the query inside;
* `Select.returns?`: the result of a query with a number of blocks around.

Where a query is outside of what is given a meaning here, there is no result.
-/

namespace SqlTree

/-- A row of a result: its cells, with the names of their columns. -/
abbrev NamedRow (V : Type) := List (Option String × Cell V)

variable {ρ V : Type}

/-! ## Innermost queries -/

/-- A query without its columns, its order, its page and its limit. Its sources, conditions, groups
and namespace, which decide the rows that it reads, are left. -/
def Select.bare (q : Select) : Select :=
  { q with items := [], orderBy := [], distinct := false, top := none, page := none }

/-- What a query keeps of its sorted rows: its page, or the first ones up to its limit. -/
def Select.window {α : Type} (q : Select) (rows : List α) : List α :=
  match q.page, q.top with
  | some p, top => (rows.drop p.offset.toNat).take (p.limit top).toNat
  | none, some n => rows.take n.toNat
  | none, none => rows

/-- The values of sort keys in a row. -/
def Reading.keys (M : Reading ρ V) (ks : List SortKey) (row : ρ) : List (Cell V) :=
  ks.map fun k => .data (M.value (.field k.table k.field) row)

/-- The order of rows that sort keys stand for. -/
def Reading.rowLE (M : Reading ρ V) (ks : List SortKey) (a b : ρ) : Bool :=
  M.keysLE (ks.map SortKey.direction) (M.keys ks a) (M.keys ks b)

/-- Rows in the order of sort keys. -/
def Reading.sorted (M : Reading ρ V) (ks : List SortKey) (rows : List ρ) : List ρ :=
  rows.mergeSort (M.rowLE ks)

/-- The columns of a query in a row. -/
def Reading.shown (M : Reading ρ V) (items : List SelectItem) (row : ρ) : NamedRow V :=
  items.map fun i => (i.outputName, .data (M.value i.expr row))

/-- The result of a query over the rows that its sources, conditions and groups leave. -/
def Select.fromRows? (M : Reading ρ V) (rows : List ρ) (q : Select) : Option (List (NamedRow V)) :=
  if q.distinct || q.items.isEmpty || q.items.any (·.expr.isStar) then none
  else some ((q.window (M.sorted q.orderBy rows)).map (M.shown q.items))

/-! ## Cells by name -/

/-- Whether a cell is in a column of some name, in any case of the letters. -/
def isCalled (name : String) (c : Option String × Cell V) : Bool := c.1.any (sameName · name)

/-- The cell of a row under a name, if there is exactly one. -/
def column? (row : NamedRow V) (name : String) : Option (Cell V) :=
  match row.filter (isCalled name) with
  | [c] => some c.2
  | _ => none

/-- The cell that an expression of a block stands for: a column of the named source, or a number. -/
def Expr.cell? (source : String) (row : NamedRow V) : Expr → Option (Cell V)
  | .field (some table) name => if table = source then column? row name else none
  | .constant (.number (.int n)) => some (.number n.toInt)
  | _ => none

/-- The cells of sort keys. -/
def keyCells? (source : String) (ks : List SortKey) (row : NamedRow V) : Option (List (Cell V)) :=
  ks.mapM fun k => (Expr.field k.table k.field).cell? source row

/-! ## Blocks -/

variable (M : Reading ρ V) (source : String)

/-- Whether a range of a block holds in a row. -/
def Predicate.holds? (row : NamedRow V) : Predicate → Option Bool
  | .between e low high negated => do
    let cell ← e.cell? source row
    let low ← low.cell? source row
    let high ← high.cell? source row
    some ((M.cellLE low cell && M.cellLE cell high) != negated)
  | _ => none

/-- Whether all ranges of a block hold in a row. -/
def Condition.holds? (row : NamedRow V) : Condition → Option Bool
  | ⟨.and, predicates, []⟩ => (predicates.mapM (Predicate.holds? M source row)).map (·.all id)
  | _ => none

/-- The members of a list of which something holds, if it is decided of all. -/
def keep? {α : Type} (holds? : α → Option Bool) : List α → Option (List α)
  | [] => some []
  | a :: as => do
    let holds ← holds? a
    let rest ← keep? holds? as
    some (if holds then a :: rest else rest)

/-- The columns that an item of a block shows of each row: all columns, the number of the row in an
order, or one cell. -/
def SelectItem.columns? (rows : List (NamedRow V)) (i : SelectItem) :
    Option (List (NamedRow V)) :=
  match i.expr with
  | .star none => some rows
  | .star (some table) => if table = source then some rows else none
  | .rowNumber ks => do
    let keys ← rows.mapM (keyCells? source ks)
    some ((positions (M.keysLE (ks.map SortKey.direction)) keys).map fun n : Nat =>
      [(i.outputName, .number n)])
  | e => rows.mapM fun row => (e.cell? source row).map fun cell => [(i.outputName, cell)]

/-- The columns that the items of a block show of each row, side by side. -/
def project? (rows : List (NamedRow V)) : List SelectItem → Option (List (NamedRow V))
  | [] => some (rows.map fun _ => [])
  | i :: is => do
    let first ← i.columns? M source rows
    let rest ← project? rows is
    some (List.zipWith (· ++ ·) first rest)

/-- The result of a block over the rows of the query inside: rows are kept, then numbered and
shown, then sorted and cut. -/
def Select.fromBlock? (rows : List (NamedRow V)) (q : Select) : Option (List (NamedRow V)) :=
  if q.distinct || q.items.isEmpty || !q.groupBy.isEmpty || !q.having.isEmpty then none
  else do
    let kept ← keep? (fun row => q.filter.holds? M source row) rows
    let shown ← project? M source kept q.items
    let keys ← kept.mapM (keyCells? source q.orderBy)
    let sorted := (keys.zip shown).mergeSort fun a b =>
      M.keysLE (q.orderBy.map SortKey.direction) a.1 b.1
    some (q.window (sorted.map Prod.snd))

/-- The result of a query with a number of blocks around; `rows` are those of every innermost
query. -/
def Select.returns? (rows : Select → List ρ) : Nat → Select → Option (List (NamedRow V))
  | 0, q => q.fromRows? M (rows q.bare)
  | depth + 1, q =>
    match q.source with
    | ⟨some ⟨.query inner, some source⟩, []⟩ => do
      let below ← Select.returns? rows depth inner
      q.fromBlock? M source below
    | _ => none

end SqlTree
