import SqlTree.Paging.NumberedBlocks

/-!
# The columns of the inner block

A page by row numbers keeps the columns of its query, names those without a name, and adds columns
for fields that are only sorted by. The pieces of the construction get names here, and what each of
them does to the expressions of the columns is stated once.

Results:
* `Select.map_expr_shownItems`: the columns that are shown have the expressions they are given.
* `placeSortKeys_induction`: what each added column keeps holds of all columns in the end.
* `Select.outerItems_of_noStar` and `Select.outerItems_of_star`: the columns of the outer block.
* `Select.exists_expr_of_mem_innerItems`: the inner block shows expressions of the query, and
  fields.
* `length_sortNames`: every sort key gets one name.
-/

namespace SqlTree

namespace Select

/-- The columns of a query that a page shows, all named unless they are stars. -/
def shownItems (q : Select) : List SelectItem := namePositions [] (withoutRowNumber q.items)

/-- The columns of the inner block: those that are shown, and those that are sorted by. -/
def innerItems (q : Select) : List SelectItem := (placeSortKeys q.shownItems q.orderBy).1

/-- The names that the sort keys of a query have in the inner block, with their directions. -/
def sortNames (q : Select) : List (String × SortDirection) :=
  (placeSortKeys q.shownItems q.orderBy).2

theorem numberedBlocks_eq (q : Select) (p : Page) :
    q.numberedBlocks p =
      outerBlock (middleBlock (q.innerBlock q.innerItems) q.sortNames) q.shownItems q.sortNames
        p.first (p.last q.top) := rfl

theorem numberedBlocks?_of_page_eq_none {q : Select} (hp : q.page = none) :
    q.numberedBlocks? = .ok q := by
  simp [numberedBlocks?, hp]

theorem numberedBlocks?_of_page {q : Select} {p : Page} (hp : q.page = some p)
    (ho : q.orderBy ≠ []) : q.numberedBlocks? = .ok (q.numberedBlocks p) := by
  have horder : q.orderBy.isEmpty = false := by simpa using ho
  simp [numberedBlocks?, hp, horder]

end Select

/-! ## Naming by position -/

/-- Naming columns leaves their expressions as they are. -/
theorem map_expr_namePositions (before items : List SelectItem) :
    (namePositions before items).map SelectItem.expr = (before ++ items).map SelectItem.expr := by
  induction items generalizing before with
  | nil => simp [namePositions]
  | cons i rest ih =>
    rw [namePositions]
    split <;> simp [ih]

theorem Select.map_expr_shownItems (q : Select) :
    q.shownItems.map SelectItem.expr = (withoutRowNumber q.items).map SelectItem.expr := by
  rw [shownItems, map_expr_namePositions, List.nil_append]

theorem Select.shownItems_eq_nil_iff (q : Select) :
    q.shownItems = [] ↔ withoutRowNumber q.items = [] := by
  rw [← List.map_eq_nil_iff, map_expr_shownItems, List.map_eq_nil_iff]

theorem exists_expr_of_mem_shownItems {q : Select} {i : SelectItem} (h : i ∈ q.shownItems) :
    ∃ j ∈ q.items, i.expr = j.expr := by
  have hmem : i.expr ∈ (withoutRowNumber q.items).map SelectItem.expr := by
    rw [← q.map_expr_shownItems]
    exact List.mem_map_of_mem h
  obtain ⟨j, hj, he⟩ := List.mem_map.mp hmem
  exact ⟨j, (List.mem_filter.mp hj).1, he.symm⟩

theorem Select.isStar_of_mem_shownItems {q : Select}
    (hstar : ∀ i ∈ q.items, i.expr.isStar = false) :
    ∀ i ∈ q.shownItems, i.expr.isStar = false := by
  intro i hi
  obtain ⟨j, hj, he⟩ := exists_expr_of_mem_shownItems hi
  rw [he]
  exact hstar j hj

/-! ## Columns for sort keys -/

/-- Whether a column is a star over the table that a sort key is from. -/
def SortKey.isCoveredBy (k : SortKey) (i : SelectItem) : Bool :=
  match i.expr with
  | .star none => true
  | .star (some t) =>
    match k.table with
    | none => true
    | some own => own == t
  | _ => false

theorem SortKey.isCovered_eq (k : SortKey) (items : List SelectItem) :
    k.isCovered items = (items.isEmpty || items.any k.isCoveredBy) := rfl

theorem SortKey.isStar_of_isCoveredBy {i : SelectItem} (k : SortKey)
    (h : k.isCoveredBy i = true) : i.expr.isStar = true := by
  obtain ⟨e, aliasName⟩ := i
  cases e with
  | star table => rfl
  | _ => simp [isCoveredBy] at h

/-- The columns after a sort key has been placed among columns. -/
def SortKey.placedIn (k : SortKey) (items : List SelectItem) : List SelectItem :=
  if k.outputName? items = none ∧ k.isCovered items = false then
    items ++ [k.hiddenItem (freshName items k.field)]
  else items

/-- The name that a sort key gets among columns. -/
def SortKey.nameIn (k : SortKey) (items : List SelectItem) : String :=
  match k.outputName? items with
  | some name => name
  | none => if k.isCovered items then k.field else freshName items k.field

theorem placeSortKeys_cons (items : List SelectItem) (k : SortKey) (ks : List SortKey) :
    placeSortKeys items (k :: ks) =
      ((placeSortKeys (k.placedIn items) ks).1,
        (k.nameIn items, k.direction) :: (placeSortKeys (k.placedIn items) ks).2) := by
  rw [placeSortKeys, SortKey.placedIn, SortKey.nameIn]
  cases k.outputName? items with
  | some name => simp
  | none => cases k.isCovered items <;> simp

/-- What holds of columns holds after sort keys have been placed, if it is kept where a key for
which nothing is found adds a column. -/
theorem placeSortKeys_induction {P : List SelectItem → Prop} {items : List SelectItem}
    {ks : List SortKey} (h : P items)
    (hstep : ∀ k ∈ ks, ∀ items, P items → k.outputName? items = none → k.isCovered items = false →
      P (items ++ [k.hiddenItem (freshName items k.field)])) : P (placeSortKeys items ks).1 := by
  induction ks generalizing items with
  | nil => exact h
  | cons k ks ih =>
    rw [placeSortKeys_cons]
    refine ih ?_ fun j hj => hstep j (List.mem_cons_of_mem k hj)
    unfold SortKey.placedIn
    split
    · rename_i hadded
      exact hstep k List.mem_cons_self items h hadded.1 hadded.2
    · exact h

theorem isStar_of_mem_placeSortKeys {items : List SelectItem} {ks : List SortKey}
    (h : ∀ i ∈ items, i.expr.isStar = false) :
    ∀ i ∈ (placeSortKeys items ks).1, i.expr.isStar = false := by
  refine placeSortKeys_induction (P := fun placed => ∀ i ∈ placed, i.expr.isStar = false) h ?_
  intro k _ items hitems _ _
  exact List.forall_mem_append.mpr ⟨hitems, List.forall_mem_singleton.mpr rfl⟩

/-- Whether a column was added for a sort key behind columns and further ones, among which nothing
was found for the key. -/
def SortKey.AddedBehind (k : SortKey) (items : List SelectItem) (i : SelectItem) : Prop :=
  ∃ more, k.outputName? (items ++ more) = none ∧
    i = k.hiddenItem (freshName (items ++ more) k.field)

theorem SortKey.AddedBehind.expr_eq {k : SortKey} {items : List SelectItem} {i : SelectItem}
    (h : k.AddedBehind items i) : i.expr = .field k.table k.field := by
  obtain ⟨more, -, rfl⟩ := h
  rfl

/-- Placing sort keys adds columns behind the given ones, each for a sort key for which nothing was
found. -/
theorem placeSortKeys_fst (items : List SelectItem) (ks : List SortKey) :
    ∃ added, (placeSortKeys items ks).1 = items ++ added ∧
      ∀ i ∈ added, ∃ k ∈ ks, k.AddedBehind items i := by
  refine placeSortKeys_induction
    (P := fun placed => ∃ added, placed = items ++ added ∧ ∀ i ∈ added, ∃ k ∈ ks,
      k.AddedBehind items i)
    ⟨[], (List.append_nil items).symm, by simp⟩ ?_
  rintro k hk _ ⟨added, rfl, hadded⟩ hname -
  refine ⟨added ++ [_], List.append_assoc items added _, ?_⟩
  rw [List.forall_mem_append, List.forall_mem_singleton]
  exact ⟨hadded, k, hk, added, hname, rfl⟩

theorem placeSortKeys_ne_nil {items : List SelectItem} {ks : List SortKey} (hne : items ≠ []) :
    (placeSortKeys items ks).1 ≠ [] := by
  obtain ⟨added, happend, -⟩ := placeSortKeys_fst items ks
  rw [happend]
  exact List.append_ne_nil_of_left_ne_nil hne added

/-- Every sort key gets one name. -/
theorem length_placeSortKeys_snd (items : List SelectItem) (ks : List SortKey) :
    (placeSortKeys items ks).2.length = ks.length := by
  induction ks generalizing items with
  | nil => rfl
  | cons k ks ih => rw [placeSortKeys_cons, List.length_cons, ih, List.length_cons]

namespace Select

/-- The inner block shows expressions of the query, and fields. -/
theorem exists_expr_of_mem_innerItems {q : Select} {i : SelectItem} (h : i ∈ q.innerItems) :
    (∃ j ∈ q.items, i.expr = j.expr) ∨ ∃ table name, i.expr = .field table name := by
  obtain ⟨added, happend, hadded⟩ := placeSortKeys_fst q.shownItems q.orderBy
  rw [innerItems, happend] at h
  rcases List.mem_append.mp h with h | h
  · exact .inl (exists_expr_of_mem_shownItems h)
  · obtain ⟨k, -, hk⟩ := hadded i h
    exact .inr ⟨_, _, hk.expr_eq⟩

theorem mem_innerItems_of_mem_shownItems {q : Select} {i : SelectItem}
    (hi : i ∈ q.shownItems) :
    i ∈ q.innerItems := by
  obtain ⟨added, happend, -⟩ := placeSortKeys_fst q.shownItems q.orderBy
  rw [innerItems, happend]
  exact List.mem_append_left _ hi

/-- The outer block shows a star or fields. -/
theorem expr_of_mem_outerItems {shown : List SelectItem} {i : SelectItem}
    (h : i ∈ outerItems shown) :
    (∃ table, i.expr = .star table) ∨ ∃ table name, i.expr = .field table name := by
  rw [outerItems] at h
  split at h
  · obtain rfl := List.mem_singleton.mp h
    exact .inl ⟨_, rfl⟩
  · obtain ⟨name, -, rfl⟩ := List.mem_map.mp h
    exact .inr ⟨_, _, rfl⟩

/-- Columns without a star among them are shown by name. -/
theorem outerItems_of_noStar {shown : List SelectItem} (hne : shown ≠ [])
    (hstar : ∀ i ∈ shown, i.expr.isStar = false) :
    outerItems shown =
      (shown.filterMap SelectItem.outputName).map (columnOf rowFilterName) := by
  have hempty : shown.isEmpty = false := by simpa using hne
  have hany : shown.any (·.expr.isStar) = false := by
    rw [List.any_eq_false]
    intro i hi
    rw [hstar i hi]
    exact Bool.false_ne_true
  rw [outerItems, hempty, hany]
  rfl

theorem outerItems_of_star {shown : List SelectItem}
    (h : shown = [] ∨ ∃ i ∈ shown, i.expr.isStar = true) :
    outerItems shown = [allColumnsOf rowFilterName] := by
  rw [outerItems, if_pos]
  simpa using h

/-- A query has as many names of sort keys as sort keys. -/
theorem length_sortNames (q : Select) : q.sortNames.length = q.orderBy.length :=
  length_placeSortKeys_snd _ _

end Select

end SqlTree
