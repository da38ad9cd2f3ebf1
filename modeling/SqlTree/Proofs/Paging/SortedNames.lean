import SqlTree.Proofs.Paging.Blocks
import SqlTree.Proofs.Paging.ColumnNames

/-!
# Names that are sorted by

A sort key without a table may name an output column or a field. In the blocks of a page fields come
first: such a key stands for the first column that shows a field of its name, be it under another
name, and only then for the column of that name. The columns that were added for the keys in front
of it take part.

* `Select.ReadsAsOutputName`: whether a name at a place of the order stands for the column of that
  name.

Results:
* `getElem?_placeSortKeys`: each sort key gets its name among the columns that are there after the
  keys in front of it.
* `Select.sortsOnOutputName_iff`: which keys without a table are sorted by the column of their name,
  if there is one.
* `Select.not_sortsOnOutputName_shadowed`: a key that is not, since another column shows a field of
  that name.
-/

namespace SqlTree

/-! ## One sort key after the other -/

/-- Each sort key gets its name among the columns that are there after the keys in front of it. -/
theorem getElem?_placeSortKeys (items : List SelectItem) (ks : List SortKey) (i : Nat) :
    (placeSortKeys items ks).2[i]? =
      ks[i]?.map fun k => (k.nameIn (placeSortKeys items (ks.take i)).1, k.direction) := by
  induction ks generalizing items i with
  | nil => simp [placeSortKeys]
  | cons k ks ih =>
    rw [placeSortKeys_cons]
    cases i with
    | zero => simp [placeSortKeys]
    | succ i => simp [ih, placeSortKeys_cons]

/-! ## Looking up a key -/

/-- Whether a column shows a field of a name, of whatever table. -/
def SelectItem.showsField (field : String) (i : SelectItem) : Bool :=
  i.expr.outputName == some field

theorem SelectItem.exists_outputName_of_showsField {i : SelectItem} {field : String}
    (h : i.showsField field = true) : ∃ name, i.outputName = some name := by
  unfold SelectItem.outputName
  cases i.aliasName with
  | some name => exact ⟨name, rfl⟩
  | none => exact ⟨field, beq_iff_eq.mp h⟩

theorem find?_outputName_eq_none_iff {items : List SelectItem} {field : String} :
    (items.filterMap SelectItem.outputName).find? (· == field) = none ↔
      ∀ i ∈ items, i.outputName ≠ some field := by
  rw [List.find?_eq_none]
  constructor
  · intro h i hi hname
    exact h field (List.mem_filterMap.mpr ⟨i, hi, hname⟩) (beq_self_eq_true field)
  · intro h name hmem heq
    obtain ⟨i, hi, hname⟩ := List.mem_filterMap.mp hmem
    exact h i hi (by rw [hname, beq_iff_eq.mp heq])

theorem find?_outputName_of_mem {items : List SelectItem} {field : String}
    (h : ∃ i ∈ items, i.outputName = some field) :
    (items.filterMap SelectItem.outputName).find? (· == field) = some field := by
  cases hfind : (items.filterMap SelectItem.outputName).find? (· == field) with
  | some name =>
    have heq : (name == field) = true := List.find?_some (p := (· == field)) hfind
    rw [beq_iff_eq.mp heq]
  | none =>
    obtain ⟨i, hi, hname⟩ := h
    exact absurd hname (find?_outputName_eq_none_iff.mp hfind i hi)

namespace SortKey

variable {k : SortKey} {items : List SelectItem}

theorem sortsOn_of_table_eq_none (h : k.table = none) :
    k.sortsOn = SelectItem.showsField k.field := by
  funext i
  unfold sortsOn SelectItem.showsField
  cases i.expr <;> simp [Expr.outputName, h]

theorem showsField_of_sortsOn {i : SelectItem} (h : k.sortsOn i = true) :
    i.showsField k.field = true := by
  unfold sortsOn at h
  split at h
  · rename_i table name he
    rw [Bool.and_eq_true, beq_iff_eq] at h
    rw [SelectItem.showsField, he, Expr.outputName, h.1, beq_self_eq_true]
  · contradiction

/-- No name is found for a key exactly if no column shows its field and, where it has no table, no
column has its name. -/
theorem outputName?_eq_none_iff :
    k.outputName? items = none ↔
      (∀ i ∈ items, k.sortsOn i = false) ∧
        (k.table = none → ∀ i ∈ items, i.outputName ≠ some k.field) := by
  have hfind : (items.find? k.sortsOn).bind SelectItem.outputName = none ↔
      ∀ i ∈ items, k.sortsOn i = false := by
    cases hi : items.find? k.sortsOn with
    | none => simpa using hi
    | some i =>
      have hsorts := List.find?_some hi
      obtain ⟨name, hname⟩ :=
        SelectItem.exists_outputName_of_showsField (showsField_of_sortsOn hsorts)
      simp only [Option.bind_some, hname, reduceCtorEq, false_iff]
      intro hall
      rw [hall i (List.mem_of_find?_eq_some hi)] at hsorts
      contradiction
  rw [outputName?, Option.orElse_eq_orElse, Option.orElse_eq_or, Option.or_eq_none_iff, hfind]
  cases k.table with
  | none =>
    rw [if_pos Option.isNone_none, find?_outputName_eq_none_iff]
    simp
  | some table => simp

/-- A key without a table that is the name of a column gets the name of the first column that shows
a field of its name, or its own name if there is none. -/
theorem nameIn_of_table_eq_none (h : k.table = none)
    (hout : ∃ i ∈ items, i.outputName = some k.field) :
    k.nameIn items =
      ((items.find? (SelectItem.showsField k.field)).bind SelectItem.outputName).getD k.field := by
  rw [nameIn, outputName?, h, if_pos Option.isNone_none, find?_outputName_of_mem hout,
    sortsOn_of_table_eq_none h]
  cases (items.find? (SelectItem.showsField k.field)).bind SelectItem.outputName <;> rfl

end SortKey

/-! ## The columns that are added -/

theorem SortKey.outputName?_eq_none_of_append {k : SortKey} {items more : List SelectItem}
    (h : k.outputName? (items ++ more) = none) : k.outputName? items = none := by
  obtain ⟨hsorts, hnames⟩ := SortKey.outputName?_eq_none_iff.mp h
  refine SortKey.outputName?_eq_none_iff.mpr ⟨fun i hi => ?_, fun ht i hi => ?_⟩
  · exact hsorts i (List.mem_append_left _ hi)
  · exact hnames ht i (List.mem_append_left _ hi)

namespace SortKey.AddedBehind

variable {k : SortKey} {items : List SelectItem} {i : SelectItem} (h : k.AddedBehind items i)

include h

theorem outputName?_eq_none : k.outputName? items = none := by
  obtain ⟨more, hname, -⟩ := h
  exact SortKey.outputName?_eq_none_of_append hname

/-- An added column has a name that none of the columns in front has. -/
theorem exists_outputName : ∃ name, i.outputName = some name ∧ name.toLower ∉ usedNames items := by
  obtain ⟨more, -, rfl⟩ := h
  have hfresh := toLower_freshName_notMem (items ++ more) k.field
  rw [usedNames_append, List.mem_append, not_or] at hfresh
  exact ⟨_, k.outputName_hiddenItem _, hfresh.1⟩

end SortKey.AddedBehind

/-- A key with a table leaves a column that shows its field. -/
theorem exists_showsUnder_placeSortKeys {items : List SelectItem} {ks : List SortKey} {k : SortKey}
    (hne : items ≠ []) (hstar : ∀ i ∈ items, i.expr.isStar = false) (hk : k ∈ ks)
    (htable : k.table.isSome = true) : ∃ name, ShowsUnder (placeSortKeys items ks).1 k name := by
  induction ks generalizing items with
  | nil => simp at hk
  | cons j ks ih =>
    rw [placeSortKeys_cons]
    rcases List.mem_cons.mp hk with rfl | hk
    · exact ⟨_, (k.showsUnder_placedIn hne hstar htable).placeSortKeys ks⟩
    · exact ih (SortKey.placedIn_ne_nil hne) (SortKey.isStar_of_mem_placedIn hstar) hk

/-! ## Naming by position -/

/-- Only columns that show no field are named by their position. -/
theorem find?_namePositions (before items : List SelectItem) (field : String) :
    (namePositions before items).find? (SelectItem.showsField field) =
      (before ++ items).find? (SelectItem.showsField field) := by
  induction items generalizing before with
  | nil => rw [namePositions, List.append_nil]
  | cons i rest ih =>
    rw [namePositions]
    split
    · rename_i hunnamed
      have hother : i.showsField field = false := by
        cases hshows : i.showsField field with
        | false => rfl
        | true =>
          obtain ⟨name, hname⟩ := SelectItem.exists_outputName_of_showsField hshows
          simp [hname] at hunnamed
      have hnamed (name : Option String) : { i with aliasName := name }.showsField field = false :=
        hother
      rw [ih]
      simp [List.find?_append, hother, hnamed]
    · rw [ih, List.append_assoc, List.singleton_append]

theorem mem_namePositions {before items : List SelectItem} {i : SelectItem}
    (h : i ∈ before ++ items) (hname : i.outputName ≠ none) : i ∈ namePositions before items := by
  induction items generalizing before with
  | nil => rwa [namePositions, ← List.append_nil before]
  | cons j rest ih =>
    rw [namePositions]
    split
    · rename_i hunnamed
      have hne : i ≠ j := by
        rintro rfl
        exact hname (Option.isNone_iff_eq_none.mp hunnamed.1)
      refine ih ?_
      simp only [List.mem_append, List.mem_cons] at h ⊢
      tauto
    · refine ih ?_
      rwa [List.append_assoc, List.singleton_append]

/-! ## Queries -/

namespace Select

/-- Whether a name in the order of a query, after a number of keys, stands for the column of that
name: the first column that shows a field of the name is shown under it, or there is no such column,
and no key in front has asked for such a field of some table. -/
def ReadsAsOutputName (q : Select) (i : Nat) (name : String) : Prop :=
  match q.items.find? (SelectItem.showsField name) with
  | some c => c.outputName = some name
  | none => ∀ j ∈ q.orderBy.take i, j.field = name → j.table = none

variable {q : Select} {p : Page} {k : SortKey}

/-- The name of a key is its own exactly if it is read as the name of a column. -/
theorem nameIn_placeSortKeys_eq_field_iff (hstar : ∀ c ∈ q.items, c.expr.isStar = false)
    (hnames : NamesApart q.items) (htable : k.table = none)
    (hout : ∃ c ∈ q.items, c.outputName = some k.field) (i : Nat) :
    k.nameIn (placeSortKeys q.shownItems (q.orderBy.take i)).1 = k.field ↔
      q.ReadsAsOutputName i k.field := by
  have hshown : q.shownItems = namePositions [] q.items := by
    rw [shownItems, hnames.withoutRowNumber_eq]
  have hfind := find?_namePositions [] q.items k.field
  rw [← hshown, List.nil_append] at hfind
  obtain ⟨c, hc, hname⟩ : ∃ c ∈ q.shownItems, c.outputName = some k.field := by
    obtain ⟨c, hc, hname⟩ := hout
    exact ⟨c, hshown ▸ mem_namePositions hc (by simp [hname]), hname⟩
  obtain ⟨added, happend, hadded⟩ := placeSortKeys_fst q.shownItems (q.orderBy.take i)
  have hlookup := SortKey.nameIn_of_table_eq_none htable ⟨c, List.mem_append_left added hc, hname⟩
  rw [happend, hlookup, List.find?_append, hfind, ReadsAsOutputName]
  cases hfirst : q.items.find? (SelectItem.showsField k.field) with
  | some first =>
    obtain ⟨name, hname⟩ :=
      SelectItem.exists_outputName_of_showsField (List.find?_some hfirst)
    simp [hname]
  | none =>
    rw [Option.none_or]
    constructor
    · intro h j hj hf
      by_contra ht
      -- The key has added a column, and the first such column has taken another name.
      obtain ⟨_, b, hb, -, he⟩ := exists_showsUnder_placeSortKeys (List.ne_nil_of_mem hc)
        (isStar_of_mem_shownItems hstar) hj (Option.isSome_iff_ne_none.mpr ht)
      have hshows : b.showsField k.field = true := by
        rw [SelectItem.showsField, he, hf, Expr.outputName, beq_self_eq_true]
      rw [happend, List.mem_append] at hb
      have hb : b ∈ added := hb.resolve_left fun hb =>
        List.find?_eq_none.mp (hfind.trans hfirst) b hb hshows
      cases ha : added.find? (SelectItem.showsField k.field) with
      | none => exact List.find?_eq_none.mp ha b hb hshows
      | some a =>
        obtain ⟨j, -, hkey⟩ := hadded a (List.mem_of_find?_eq_some ha)
        obtain ⟨name, hname', hfree⟩ := hkey.exists_outputName
        rw [ha, Option.bind_some, hname', Option.getD_some] at h
        rw [h] at hfree
        exact hfree (List.mem_filterMap.mpr ⟨c, hc, by rw [hname]; rfl⟩)
    · intro h
      have hnone : added.find? (SelectItem.showsField k.field) = none := by
        refine List.find?_eq_none.mpr fun a ha hfield => ?_
        obtain ⟨j, hj, hkey⟩ := hadded a ha
        have hf : j.field = k.field := by
          simpa [SelectItem.showsField, hkey.expr_eq, Expr.outputName] using hfield
        have hmissing := SortKey.outputName?_eq_none_iff.mp hkey.outputName?_eq_none
        have hfree := hmissing.2 (h j hj hf) c hc
        exact hfree (by rw [hf, hname])
      rw [hnone]
      rfl

theorem getElem?_sortKeysOf_sortNames {i : Nat} (hk : q.orderBy[i]? = some k) (source : String) :
    (sortKeysOf source q.sortNames)[i]? =
      some { field := k.nameIn (placeSortKeys q.shownItems (q.orderBy.take i)).1
             table := some source
             direction := k.direction } := by
  rw [sortKeysOf, List.getElem?_map, sortNames, getElem?_placeSortKeys, hk]
  rfl

/-- A key without a table whose field is the name of a column is sorted by one name in both blocks.
It is the name of that column exactly if no other column that shows a field of the name comes
before it in the lookup: neither one of the query nor one that was added for a key in front. -/
theorem sortsOnOutputName_iff {i : Nat} (hp : q.page = some p)
    (hstar : ∀ c ∈ q.items, c.expr.isStar = false) (hnames : NamesApart q.items)
    (hk : q.orderBy[i]? = some k) (htable : k.table = none)
    (hout : ∃ c ∈ q.items, c.outputName = some k.field) :
    ∃ b middle order name,
      q.numberedBlocks? = .ok b ∧ b.source = .ofQuery middle rowFilterName ∧
      middle.items = [allColumnsOf wrapperName, ⟨.rowNumber order, some rowNumberName⟩] ∧
      order[i]? = some ⟨name, some wrapperName, k.direction⟩ ∧
      b.orderBy[i]? = some ⟨name, some rowFilterName, k.direction⟩ ∧
      (name = k.field ↔ q.ReadsAsOutputName i k.field) := by
  have ho : q.orderBy ≠ [] := List.ne_nil_of_mem (List.mem_of_getElem? hk)
  exact ⟨_, _, _, _, numberedBlocks?_of_page hp ho, rfl, rfl,
    getElem?_sortKeysOf_sortNames hk wrapperName, getElem?_sortKeysOf_sortNames hk rowFilterName,
    nameIn_placeSortKeys_eq_field_iff hstar hnames htable hout i⟩

/-- A page of orders by day, which is how they name the time at which they were placed. -/
def renamedPage : Select :=
  { secondPage with
    items := [{ expr := .field (some "orders") "placed", aliasName := some "day" }]
    orderBy := [{ field := "day", table := none, direction := .desc }] }

/-- The page is sorted by day. -/
theorem sortsOnOutputName_renamedPage :
    renamedPage.page = some ⟨1, 2⟩ ∧ (∀ c ∈ renamedPage.items, c.expr.isStar = false) ∧
    NamesApart renamedPage.items ∧
    renamedPage.orderBy[0]? = some ⟨"day", none, .desc⟩ ∧
    (∃ c ∈ renamedPage.items, c.outputName = some "day") ∧
    ∃ b, renamedPage.numberedBlocks? = .ok b ∧
      b.orderBy[0]? = some ⟨"day", some rowFilterName, .desc⟩ := by
  have hstar : ∀ c ∈ renamedPage.items, c.expr.isStar = false := List.forall_mem_singleton.mpr rfl
  have hnames : NamesApart renamedPage.items := by decide +kernel
  have hout : ∃ c ∈ renamedPage.items, c.outputName = some "day" := ⟨_, List.mem_cons_self, rfl⟩
  obtain ⟨b, -, -, name, hb, -, -, -, hname, hiff⟩ :=
    sortsOnOutputName_iff (q := renamedPage) (k := ⟨"day", none, .desc⟩) (i := 0) rfl hstar hnames
      rfl rfl hout
  have hread : renamedPage.ReadsAsOutputName 0 "day" := by
    simp [ReadsAsOutputName, renamedPage, SelectItem.showsField, Expr.outputName]
  obtain rfl := hiff.mpr hread
  exact ⟨rfl, hstar, hnames, rfl, hout, b, hb, hname⟩

/-- A page of orders by the column `id`, which shows their references, behind a column that shows
their ids under another name. -/
def shadowedPage : Select :=
  { secondPage with
    items := [{ expr := .field (some "orders") "id", aliasName := some "number" },
      { expr := .field (some "orders") "reference", aliasName := some "id" }]
    orderBy := [{ field := "id", table := none, direction := .asc }] }

/-- The page is sorted by the other column. -/
theorem not_sortsOnOutputName_shadowed :
    (Statement.select shadowedPage).validate = .ok () ∧
    (∀ c ∈ shadowedPage.items, c.expr.isStar = false) ∧ NamesApart shadowedPage.items ∧
    shadowedPage.orderBy[0]? = some ⟨"id", none, .asc⟩ ∧
    (∃ c ∈ shadowedPage.items, c.outputName = some "id") ∧
    ∃ b middle order,
      shadowedPage.numberedBlocks? = .ok b ∧ b.source = .ofQuery middle rowFilterName ∧
      middle.items = [allColumnsOf wrapperName, ⟨.rowNumber order, some rowNumberName⟩] ∧
      order[0]? = some ⟨"number", some wrapperName, .asc⟩ ∧
      b.orderBy[0]? = some ⟨"number", some rowFilterName, .asc⟩ := by
  have hnames : shadowedPage.sortNames = [("number", .asc)] := by decide +kernel
  have hkeys (source : String) : (sortKeysOf source shadowedPage.sortNames)[0]? =
      some ⟨"number", some source, .asc⟩ := by
    rw [hnames]
    rfl
  refine ⟨rfl, by simp [shadowedPage, Expr.isStar], by decide +kernel, rfl,
    ⟨_, List.mem_cons_of_mem _ List.mem_cons_self, rfl⟩, ?_⟩
  exact ⟨_, _, _, rfl, rfl, rfl, hkeys wrapperName, hkeys rowFilterName⟩

end Select

end SqlTree
