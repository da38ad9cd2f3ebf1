import SqlTree.Proofs.Paging.Blocks
import SqlTree.Proofs.Paging.Bounds
import SqlTree.Proofs.Rows.Lookup

/-!
# Pages by row numbers return the rows of the page

The three blocks of a page are followed from the inside. The inner block shows, for each row, the
columns of the query and those of its sort keys; the middle block adds to each row its position in
the order of the query; the outer block keeps the rows of the page by these numbers, sorts them
again and shows the columns of the query.

Results:
* `Select.returns?_middleBlock`: what the inner and the middle block return.
* `Select.returns?_numberedBlocks`: the three blocks return the rows that are left of the sorted
  rows when the offset is skipped and the limit is taken.
* `Select.numberedBlocks_returns_page`: the query itself, with its page, returns the same values.
-/

namespace SqlTree

variable {ρ V : Type} (M : Reading ρ V)

namespace Reading

theorem rowLE_trans (ks : List SortKey) (a b c : ρ) (hab : M.rowLE ks a b = true)
    (hbc : M.rowLE ks b c = true) : M.rowLE ks a c = true :=
  M.keysLE_trans _ _ _ _ hab hbc

theorem rowLE_total (ks : List SortKey) (a b : ρ) : (M.rowLE ks a b || M.rowLE ks b a) = true :=
  M.keysLE_total _ _ _

/-- Sorting without sort keys changes nothing. -/
theorem mergeSort_keysLE_nil {α : Type} (f : α → List (Cell V)) (l : List α) :
    l.mergeSort (fun a b => M.keysLE [] (f a) (f b)) = l :=
  List.mergeSort_of_pairwise (List.pairwise_of_forall fun _ _ => rfl)

end Reading

/-! ## Innermost queries -/

/-- The result of a query that shows columns and no stars. -/
theorem Select.fromRows?_eq_some {q : Select} (rows : List ρ) (hdistinct : q.distinct = false)
    (hitems : q.items ≠ []) (hstar : ∀ i ∈ q.items, i.expr.isStar = false) :
    q.fromRows? M rows = some ((q.window (M.sorted q.orderBy rows)).map (M.shown q.items)) := by
  have hempty : q.items.isEmpty = false := by simpa using hitems
  have hany : q.items.any (·.expr.isStar) = false := by
    rw [List.any_eq_false]
    intro i hi
    rw [hstar i hi]
    exact Bool.false_ne_true
  rw [fromRows?, hdistinct, hempty, hany]
  rfl

/-- The inner block returns the columns of every row. -/
theorem Select.returns?_innerBlock {q : Select} (h : q.Numberable) (rows : Select → List ρ) :
    (q.innerBlock q.innerItems).returns? M rows 0 =
      some ((rows q.bare).map (M.shown q.innerItems)) := by
  have hsorted : M.sorted [] (rows q.bare) = rows q.bare :=
    M.mergeSort_keysLE_nil (M.keys []) (rows q.bare)
  have hbare : (q.innerBlock q.innerItems).bare = q.bare := rfl
  have hresult := Select.fromRows?_eq_some M (q := q.innerBlock q.innerItems) (rows q.bare)
    h.notDistinct h.innerItems_ne_nil h.isStar_of_mem_innerItems
  rw [returns?, hbare, hresult]
  show some ((M.sorted [] (rows q.bare)).map (M.shown q.innerItems)) = _
  rw [hsorted]

/-! ## Blocks -/

theorem mergeSort_zip_map {α β γ : Type} (le : β → β → Bool) (f : α → β) (g : α → γ) (l : List α) :
    ((l.map f).zip (l.map g)).mergeSort (fun a b => le a.1 b.1) =
      (l.mergeSort fun a b => le (f a) (f b)).map fun x => (f x, g x) := by
  rw [List.zip_map']
  refine (List.map_mergeSort ?_).symm
  intro a _ b _
  rfl

/-- The result of a block over rows that are made from members of a list: the conditions, the
columns and the sort keys need a meaning in these rows only. -/
theorem Select.fromBlock?_map_eq_some {α : Type} {q : Select} {source : String} {xs : List α}
    {row shown : α → NamedRow V} {keys : α → List (Cell V)} {kept : α → Bool}
    (hguard : (q.distinct || q.items.isEmpty || !q.groupBy.isEmpty || !q.having.isEmpty) = false)
    (hkeep : ∀ x ∈ xs, q.filter.holds? M source (row x) = some (kept x))
    (hshow : project? M source ((xs.filter kept).map row) q.items =
      some ((xs.filter kept).map shown))
    (hkeys : ∀ x ∈ xs, keyCells? source q.orderBy (row x) = some (keys x)) :
    q.fromBlock? M source (xs.map row) =
      some (q.window (((xs.filter kept).mergeSort fun a b =>
        M.keysLE (q.orderBy.map SortKey.direction) (keys a) (keys b)).map shown)) := by
  have hkept : keep? (fun r => q.filter.holds? M source r) (xs.map row) =
      some ((xs.filter kept).map row) := keep?_map_eq_some hkeep
  have hcells : ((xs.filter kept).map row).mapM (keyCells? source q.orderBy) =
      some ((xs.filter kept).map keys) :=
    mapM_map_eq_some fun x hx => hkeys x (List.mem_filter.mp hx).1
  rw [fromBlock?, hguard]
  simp only [Bool.false_eq_true, if_false, hkept, hshow, hcells, Option.bind_eq_bind,
    Option.bind_some, mergeSort_zip_map, List.map_map]
  rfl

theorem zipWith_map_map {α β γ δ : Type} (op : β → γ → δ) (f : α → β) (g : α → γ) (l : List α) :
    List.zipWith op (l.map f) (l.map g) = l.map fun a => op (f a) (g a) := by
  rw [List.zipWith_map, List.zipWith_self]

/-! ## The middle block -/

/-- The rows with their positions in the order of the query. -/
def Reading.ranked (q : Select) (rows : List ρ) : List (ρ × Nat) :=
  rows.zip (positions (M.rowLE q.orderBy) rows)

theorem Reading.map_ranked_fst {α : Type} (f : ρ → α) (q : Select) (rows : List ρ) :
    (M.ranked q rows).map (fun x => f x.1) = rows.map f := by
  have hfst : (M.ranked q rows).map Prod.fst = rows :=
    List.map_fst_zip (Nat.le_of_eq (length_positions _ _).symm)
  conv => rhs; rw [← hfst, List.map_map]
  rfl

theorem Reading.map_ranked_snd {α : Type} (f : Nat → α) (q : Select) (rows : List ρ) :
    (M.ranked q rows).map (fun x => f x.2) = (positions (M.rowLE q.orderBy) rows).map f := by
  have hsnd : (M.ranked q rows).map Prod.snd = positions (M.rowLE q.orderBy) rows :=
    List.map_snd_zip (Nat.le_of_eq (length_positions _ _))
  rw [← hsnd, List.map_map]
  rfl

/-- In the rows of the inner block, the names of the sort keys have the values of the keys. -/
theorem keyCells?_shown {q : Select} (h : q.Numberable) (source : String) (row : ρ) :
    keyCells? source (sortKeysOf source q.sortNames) (M.shown q.innerItems row) =
      some (M.keys q.orderBy row) :=
  keyCells?_sortKeysOf M source
    (fun _ hi _ hname => Reading.column?_shown h.namesApart_innerItems hi hname row)
    h.forall₂_sortNames

/-- The middle block numbers the rows of the inner block by their positions in the order of the
query. -/
theorem columns?_rowNumber {q : Select} (h : q.Numberable) (rows : List ρ) :
    SelectItem.columns? M wrapperName (rows.map (M.shown q.innerItems))
      ⟨.rowNumber (sortKeysOf wrapperName q.sortNames), some rowNumberName⟩ =
      some ((positions (M.rowLE q.orderBy) rows).map fun n =>
        [(some rowNumberName, .number n)]) := by
  have hkeys : (rows.map (M.shown q.innerItems)).mapM
      (keyCells? wrapperName (sortKeysOf wrapperName q.sortNames)) =
        some (rows.map (M.keys q.orderBy)) :=
    mapM_map_eq_some fun row _ => keyCells?_shown M h wrapperName row
  simp only [SelectItem.columns?, hkeys, Option.bind_eq_bind, Option.bind_some,
    map_direction_sortKeysOf wrapperName h.forall₂_sortNames, positions_map]
  rfl

/-- What the middle block shows of the rows of the inner block. -/
theorem project?_middleBlock {q : Select} (h : q.Numberable) (rows : List ρ) :
    project? M wrapperName (rows.map (M.shown q.innerItems))
      (Select.middleBlock (q.innerBlock q.innerItems) q.sortNames).items =
      some ((M.ranked q rows).map fun x => M.numbered q.innerItems x.1 x.2) := by
  have hall : SelectItem.columns? M wrapperName (rows.map (M.shown q.innerItems))
      (allColumnsOf wrapperName) = some (rows.map (M.shown q.innerItems)) := by
    unfold SelectItem.columns? allColumnsOf
    exact if_pos rfl
  simp only [Select.middleBlock, project?, hall, columns?_rowNumber M h rows, Option.bind_eq_bind,
    Option.bind_some]
  rw [← M.map_ranked_fst (M.shown q.innerItems) q rows, ← M.map_ranked_snd, List.map_map,
    zipWith_map_map, zipWith_map_map]
  rfl

/-- The inner and the middle block return every row with its columns and its number. -/
theorem Select.returns?_middleBlock {q : Select} (h : q.Numberable) (rows : Select → List ρ) :
    (middleBlock (q.innerBlock q.innerItems) q.sortNames).returns? M rows 1 =
      some ((M.ranked q (rows q.bare)).map fun x => M.numbered q.innerItems x.1 x.2) := by
  have hinner := Select.returns?_innerBlock M h rows
  generalize rows q.bare = read at hinner ⊢
  have hranked := M.map_ranked_fst (M.shown q.innerItems) q read
  have hshow : project? M wrapperName
      (((M.ranked q read).filter fun _ => true).map fun x => M.shown q.innerItems x.1)
      (middleBlock (q.innerBlock q.innerItems) q.sortNames).items =
      some (((M.ranked q read).filter fun _ => true).map
        fun x => M.numbered q.innerItems x.1 x.2) := by
    rw [List.filter_true, hranked]
    exact project?_middleBlock M h read
  -- the block keeps all rows and has no sort keys of its own
  have hblock : (middleBlock (q.innerBlock q.innerItems) q.sortNames).fromBlock? M wrapperName
      ((M.ranked q read).map fun x => M.shown q.innerItems x.1) =
      some ((((M.ranked q read).filter fun _ => true).mergeSort fun _ _ =>
        M.keysLE [] [] []).map fun x => M.numbered q.innerItems x.1 x.2) :=
    Select.fromBlock?_map_eq_some M rfl (fun _ _ => rfl) hshow fun _ _ => rfl
  show ((q.innerBlock q.innerItems).returns? M rows 0).bind
    (fun below => (middleBlock (q.innerBlock q.innerItems) q.sortNames).fromBlock? M wrapperName
      below) = _
  rw [hinner, Option.bind_some, ← hranked, hblock, List.filter_true,
    M.mergeSort_keysLE_nil fun _ => []]

/-! ## The outer block -/

/-- In the rows of the middle block, the names of the sort keys have the values of the keys. -/
theorem keyCells?_numbered {q : Select} (h : q.Numberable) (source : String) (row : ρ) (n : Nat) :
    keyCells? source (sortKeysOf source q.sortNames) (M.numbered q.innerItems row n) =
      some (M.keys q.orderBy row) :=
  keyCells?_sortKeysOf M source
    (fun _ hi _ hname => Reading.column?_numbered h.namesApart_innerItems hi hname row n)
    h.forall₂_sortNames

/-- The condition of the outer block holds in the rows of the page. -/
theorem holds?_rowsBetween {items : List SelectItem} (h : NamesApart items) (p : Page)
    (top : Option UInt64) (row : ρ) {n : Nat} (hn : n < 2 ^ 63 - 1) :
    (Select.rowsBetween p.first (p.last top)).holds? M rowFilterName (M.numbered items row n) =
      some (decide (p.offset.toNat < n ∧ n ≤ p.offset.toNat + (p.limit top).toNat)) := by
  have hnumber := Reading.column?_numbered_rowNumberName (M := M) h row n
  have hrange : (Predicate.between (.field (some rowFilterName) rowNumberName)
      (countExpr p.first) (countExpr (p.last top)) false).holds? M rowFilterName
        (M.numbered items row n) =
      some (decide ((countLiteral p.first).toInt ≤ (n : Int) ∧
        (n : Int) ≤ (countLiteral (p.last top)).toInt)) := by
    simp [Predicate.holds?, hnumber, countExpr, Expr.cell?, Reading.cellLE]
  simp only [p.between_bounds_iff top hn] at hrange
  rw [Select.rowsBetween, Condition.holds?, List.mapM_cons, hrange]
  simp

/-- What the outer block shows of rows in which the columns of the page are found. -/
theorem project?_outerItems {α : Type} {xs : List α} {row : α → NamedRow V}
    {shown : List SelectItem} {cell : SelectItem → α → Cell V} (source : String)
    (hnamed : ∀ i ∈ shown, i.outputName.isSome = true)
    (hfind : ∀ i ∈ shown, ∀ name, i.outputName = some name →
      ∀ x ∈ xs, column? (row x) name = some (cell i x)) :
    project? M source (xs.map row)
      ((shown.filterMap SelectItem.outputName).map (columnOf source)) =
      some (xs.map fun x => shown.map fun i => (i.outputName, cell i x)) := by
  induction shown with
  | nil =>
    rw [List.filterMap_nil, List.map_nil, project?, List.map_map]
    rfl
  | cons i shown ih =>
    have hrest := ih (fun j hj => hnamed j (List.mem_cons_of_mem _ hj))
      (fun j hj => hfind j (List.mem_cons_of_mem _ hj))
    obtain ⟨name, hname⟩ := Option.isSome_iff_exists.mp (hnamed i List.mem_cons_self)
    have hcolumn : SelectItem.columns? M source (xs.map row) (columnOf source name) =
        some (xs.map fun x => [(some name, cell i x)]) := by
      refine mapM_map_eq_some fun x hx => ?_
      rw [columnOf, cell?_field, hfind i List.mem_cons_self name hname x hx]
      rfl
    rw [List.filterMap_cons_some hname, List.map_cons, project?, hcolumn, hrest]
    simp only [Option.bind_eq_bind, Option.bind_some, zipWith_map_map, List.map_cons, hname]
    rfl

/-- What the outer block shows of rows of the middle block. -/
theorem project?_outerBlock {q : Select} (h : q.Numberable) (ranked : List (ρ × Nat)) :
    project? M rowFilterName (ranked.map fun x => M.numbered q.innerItems x.1 x.2)
      (Select.outerItems q.shownItems) = some (ranked.map fun x => M.shown q.shownItems x.1) := by
  rw [h.outerItems_shownItems]
  refine project?_outerItems M rowFilterName h.isSome_outputName_of_mem_shownItems ?_
  intro i hi name hname x _
  exact Reading.column?_numbered h.namesApart_innerItems
    (Select.mem_innerItems_of_mem_shownItems hi) hname x.1 x.2

/-- The three blocks return the rows that are left of the sorted rows when the offset is skipped and
the limit is taken. -/
theorem Select.returns?_numberedBlocks {q : Select} (h : q.Numberable) (p : Page)
    (rows : Select → List ρ) (hrows : (rows q.bare).length < 2 ^ 63 - 1) :
    (q.numberedBlocks p).returns? M rows 2 =
      some ((((M.sorted q.orderBy (rows q.bare)).drop p.offset.toNat).take
        (p.limit q.top).toNat).map (M.shown q.shownItems)) := by
  rw [numberedBlocks_eq]
  have hmiddle := Select.returns?_middleBlock M h rows
  generalize rows q.bare = read at hrows hmiddle ⊢
  have hkeep : ∀ x ∈ M.ranked q read,
      (rowsBetween p.first (p.last q.top)).holds? M rowFilterName
        (M.numbered q.innerItems x.1 x.2) =
      some (decide (p.offset.toNat < x.2 ∧ x.2 ≤ p.offset.toNat + (p.limit q.top).toNat)) := by
    intro x hx
    have hle := mem_positions (List.of_mem_zip hx).2
    exact holds?_rowsBetween M h.namesApart_innerItems p q.top x.1 (Nat.lt_of_le_of_lt hle hrows)
  have hguard : (false || (outerItems q.shownItems).isEmpty || false || false) = false := by
    simp [h.outerItems_ne_nil]
  have hblock := Select.fromBlock?_map_eq_some M (q := outerBlock
    (middleBlock (q.innerBlock q.innerItems) q.sortNames) q.shownItems q.sortNames p.first
    (p.last q.top)) hguard hkeep (project?_outerBlock M h _)
    fun x _ => keyCells?_numbered M h rowFilterName x.1 x.2
  show ((middleBlock (q.innerBlock q.innerItems) q.sortNames).returns? M rows 1).bind
    (fun below => (outerBlock (middleBlock (q.innerBlock q.innerItems) q.sortNames) q.shownItems
      q.sortNames p.first (p.last q.top)).fromBlock? M rowFilterName below) = _
  rw [hmiddle, Option.bind_some, hblock, Reading.sorted,
    ← map_fst_mergeSort_filter_positions (M.rowLE_trans q.orderBy) (M.rowLE_total q.orderBy),
    List.map_map]
  show some (List.map _ (List.mergeSort _ fun a b =>
    M.keysLE ((sortKeysOf rowFilterName q.sortNames).map SortKey.direction) _ _)) = _
  rw [map_direction_sortKeysOf rowFilterName h.forall₂_sortNames]
  rfl

/-! ## Pages -/

/-- The values in rows, without the names of their columns. -/
def rowValues (rows : List (NamedRow V)) : List (List (Cell V)) := rows.map (List.map Prod.snd)

theorem Reading.map_snd_shown (items : List SelectItem) (row : ρ) :
    (M.shown items row).map Prod.snd = (items.map SelectItem.expr).map fun e =>
      .data (M.value e row) := by
  rw [shown, List.map_map, List.map_map]
  rfl

/-- The blocks of a page return, row by row, the values that the query itself returns with its
page: those of the sorted rows, without as many as the offset says, and then as many as the limit
says. Nothing is assumed of the rows that its sources, conditions and groups leave, but that the
numbers of a database can count them. -/
theorem Select.numberedBlocks_returns_page {q : Select} {p : Page} (h : q.Numberable)
    (hp : q.page = some p) (rows : Select → List ρ) (hrows : (rows q.bare).length < 2 ^ 63 - 1) :
    ∃ blocks result flat, q.numberedBlocks? = .ok blocks ∧
      blocks.returns? M rows 2 = some result ∧ q.returns? M rows 0 = some flat ∧
      rowValues result = rowValues flat ∧
      rowValues flat =
        (((M.sorted q.orderBy (rows q.bare)).drop p.offset.toNat).take (p.limit q.top).toNat).map
          fun row => q.items.map fun i => .data (M.value i.expr row) := by
  have hwindow : q.window (M.sorted q.orderBy (rows q.bare)) =
      ((M.sorted q.orderBy (rows q.bare)).drop p.offset.toNat).take (p.limit q.top).toNat := by
    rw [window, hp]
  refine ⟨_, _, _, numberedBlocks?_of_page hp h.hasOrder,
    returns?_numberedBlocks M h p rows hrows,
    fromRows?_eq_some M (rows q.bare) h.notDistinct h.hasItems h.noStar, ?_, ?_⟩
  · rw [rowValues, rowValues, hwindow, List.map_map, List.map_map]
    refine List.map_congr_left fun row _ => ?_
    rw [Function.comp, Function.comp, M.map_snd_shown, M.map_snd_shown, h.map_expr_shownItems]
  · rw [rowValues, hwindow, List.map_map]
    refine List.map_congr_left fun row _ => ?_
    rw [Function.comp, M.map_snd_shown, List.map_map]
    rfl

/-- Orders with an id and a date, read as numbers. -/
def ordersReading : Reading (Nat × Nat) Nat where
  value e row :=
    match e with
    | .field _ "id" => row.1
    | .field _ "placed" => row.2
    | _ => 0
  le a b := decide (a ≤ b)
  le_trans a b c hab hbc := by
    rw [decide_eq_true_eq] at hab hbc ⊢
    exact Nat.le_trans hab hbc
  le_total a b := by
    rw [Bool.or_eq_true, decide_eq_true_eq, decide_eq_true_eq]
    exact Nat.le_total a b

/-- The rows of the orders, and none of any other source. -/
def ordersRows (q : Select) : List (Nat × Nat) :=
  match q.source with
  | ⟨some ⟨.table "orders" none, none⟩, []⟩ => [(1, 5), (2, 9), (3, 9), (4, 1), (5, 7)]
  | _ => []

theorem sorted_ordersRows :
    ordersReading.sorted Select.secondPage.orderBy (ordersRows Select.secondPage.bare) =
      [(2, 9), (3, 9), (5, 7), (1, 5), (4, 1)] := by
  have hle : ordersReading.rowLE Select.secondPage.orderBy = fun a b => decide (b.2 ≤ a.2) := by
    funext a b
    simp [Reading.rowLE, Select.secondPage, Reading.keys, Reading.keysLE, Reading.directedLE,
      Reading.cellLE, ordersReading]
  have hrows : ordersRows Select.secondPage.bare = [(1, 5), (2, 9), (3, 9), (4, 1), (5, 7)] := rfl
  rw [Reading.sorted, hle, hrows]
  simp [List.mergeSort]

/-- The second page of five orders, newest first: two orders of one date come before it. -/
theorem Select.secondPage_returns :
    ∃ blocks result, secondPage.numberedBlocks? = .ok blocks ∧
      blocks.returns? ordersReading ordersRows 2 = some result ∧
      rowValues result = [[.data 5], [.data 1]] := by
  have hnumberable : secondPage.Numberable :=
    { notDistinct := rfl
      hasItems := by simp [secondPage]
      noStar := by decide
      namesApart := by decide +kernel
      hasOrder := by simp [secondPage]
      keysInTables := by decide
      keysApart := by
        intro k hk
        obtain rfl := List.mem_singleton.mp hk
        decide +kernel }
  obtain ⟨blocks, result, flat, hblocks, hresult, -, hsame, hflat⟩ :=
    numberedBlocks_returns_page ordersReading hnumberable rfl ordersRows (by decide)
  rw [sorted_ordersRows] at hflat
  exact ⟨blocks, result, hblocks, hresult, hsame.trans hflat⟩

end SqlTree
