import SqlTree.Proofs.Paging.HiddenColumns

/-!
# Captured sort keys

A sort key without a table that is no column of the query means a field of the source. The inner
block has further names: those that columns get for their positions, and those of hidden columns
whose fields share a name. Such an invented name captures a sort key of the same name, unless a
column shows the field that is meant.

* `SortKey.IsCapturedBy`: whether columns capture a sort key.
* `Select.itemsBefore`: the columns that the sort key at a place is looked up among.

Results:
* `Select.exists_numberedName_of_isCapturedBy`: only a name that ends in a number is captured.
* `Select.sortsOnField_iff`: the one column that a sort key is sorted by shows its field exactly if
  the key is not captured.
* `Select.not_sortsOnField_counted`: a sort key that is captured by the name of a position.
-/

namespace SqlTree

/-! ## Looking up a key -/

theorem SelectItem.showsField_iff {i : SelectItem} {field : String} :
    i.showsField field = true ↔ ∃ table, i.expr = .field table field := by
  unfold showsField
  cases i.expr <;> simp [Expr.outputName]

namespace SortKey

/-- Whether a sort key is captured by columns: one of them has the field of the key as its name,
while none of them shows a field of this name. -/
def IsCapturedBy (k : SortKey) (items : List SelectItem) : Prop :=
  (∀ i ∈ items, i.showsField k.field = false) ∧ ∃ i ∈ items, i.outputName = some k.field

variable {k : SortKey} {items : List SelectItem}

theorem mem_placedIn {i : SelectItem} (hi : i ∈ items) : i ∈ k.placedIn items := by
  unfold placedIn
  split
  · exact List.mem_append_left _ hi
  · exact hi

/-- The name of a key without a table is that of a column which shows the field of the key, unless
the key is captured. -/
theorem exists_mem_placedIn (htable : k.table = none) (hcovered : k.isCovered items = false) :
    ∃ c ∈ k.placedIn items, c.outputName = some (k.nameIn items) ∧
      (c.showsField k.field = true ↔ ¬k.IsCapturedBy items) := by
  cases hfind : items.find? (SelectItem.showsField k.field) with
  | some c =>
    -- A column shows the field, so the lookup never gets to the names.
    have hc := List.mem_of_find?_eq_some hfind
    have hshows : c.showsField k.field = true := List.find?_some hfind
    obtain ⟨name, hname⟩ := SelectItem.exists_outputName_of_showsField hshows
    have houtput : k.outputName? items = some name := by
      rw [outputName?, sortsOn_of_table_eq_none htable, hfind, Option.bind_some, hname]
      rfl
    refine ⟨c, mem_placedIn hc, by rw [nameIn, houtput, hname], iff_of_true hshows ?_⟩
    rintro ⟨hnone, -⟩
    rw [hnone c hc] at hshows
    contradiction
  | none =>
    have hnone : ∀ i ∈ items, i.showsField k.field = false := by
      simpa using List.find?_eq_none.mp hfind
    by_cases hnamed : ∃ i ∈ items, i.outputName = some k.field
    · -- The key is captured.
      obtain ⟨c, hc, hname⟩ := hnamed
      have hown := nameIn_of_table_eq_none htable ⟨c, hc, hname⟩
      rw [hfind, Option.bind_none, Option.getD_none] at hown
      refine ⟨c, mem_placedIn hc, by rw [hown, hname], iff_of_false ?_ ?_⟩
      · rw [hnone c hc]
        exact Bool.false_ne_true
      · exact fun hnot => hnot ⟨hnone, c, hc, hname⟩
    · -- Nothing is found, and a column is hidden that shows the field.
      have houtput : k.outputName? items = none := by
        refine outputName?_eq_none_iff.mpr ⟨?_, fun _ i hi hname => hnamed ⟨i, hi, hname⟩⟩
        rwa [sortsOn_of_table_eq_none htable]
      have hfresh : k.nameIn items = freshName items k.field := by
        rw [nameIn, houtput]
        simp [hcovered]
      rw [hfresh, placedIn, if_pos ⟨houtput, hcovered⟩]
      refine ⟨_, List.mem_append_right _ List.mem_cons_self, k.outputName_hiddenItem _,
        iff_of_true (beq_self_eq_true (some k.field)) fun hcaptured => hnamed hcaptured.2⟩

end SortKey

/-! ## Names of the inner block -/

/-- Placing sort keys keeps names different, if case is ignored. -/
theorem nodup_usedNames_placeSortKeys {items : List SelectItem} {ks : List SortKey}
    (h : (usedNames items).Nodup) : (usedNames (placeSortKeys items ks).1).Nodup := by
  refine placeSortKeys_induction (P := fun placed => (usedNames placed).Nodup) h ?_
  intro k _ items hitems _ _
  rw [usedNames_append, usedNames_cons_of_some [] (k.outputName_hiddenItem _)]
  exact List.nodup_append.mpr ⟨hitems, List.nodup_singleton _, fun a ha b hb =>
    List.mem_singleton.mp hb ▸ ne_of_mem_of_not_mem ha (toLower_freshName_notMem items k.field)⟩

/-- Where names differ, a name belongs to one column at most. -/
theorem eq_of_isNamed {items : List SelectItem} (h : (usedNames items).Nodup) {c d : SelectItem}
    {name : String} (hc : c ∈ items) (hd : d ∈ items) (hname : c.outputName = some name)
    (hsame : d.isNamed name = true) : d = c := by
  obtain ⟨name', hname', hlower⟩ := SelectItem.isNamed_iff.mp hsame
  obtain ⟨m, hm, rfl⟩ := List.mem_iff_getElem.mp hc
  obtain ⟨n, hn, rfl⟩ := List.mem_iff_getElem.mp hd
  have hpairs := List.pairwise_iff_getElem.mp (List.pairwise_filterMap.mp h)
  rcases Nat.lt_trichotomy m n with hmn | rfl | hnm
  · exact absurd hlower.symm (hpairs m n hm hn hmn _ (by simp [hname]) _ (by simp [hname']))
  · rfl
  · exact absurd hlower (hpairs n m hn hm hnm _ (by simp [hname']) _ (by simp [hname]))

theorem placeSortKeys_append (items : List SelectItem) (ks js : List SortKey) :
    (placeSortKeys items (ks ++ js)).1 = (placeSortKeys (placeSortKeys items ks).1 js).1 := by
  induction ks generalizing items with
  | nil => rfl
  | cons k ks ih => rw [List.cons_append, placeSortKeys_cons, placeSortKeys_cons, ih]

namespace Select

variable {q : Select} {p : Page} {k : SortKey}

/-- The columns that the sort key at a place is looked up among. -/
def itemsBefore (q : Select) (i : Nat) : List SelectItem :=
  (placeSortKeys q.shownItems (q.orderBy.take i)).1

theorem innerItems_eq_placeSortKeys {i : Nat} (hk : q.orderBy[i]? = some k) :
    q.innerItems =
      (placeSortKeys (k.placedIn (q.itemsBefore i)) (q.orderBy.drop (i + 1))).1 := by
  obtain ⟨hi, hki⟩ := List.getElem?_eq_some_iff.mp hk
  have hsplit : q.orderBy = q.orderBy.take i ++ k :: q.orderBy.drop (i + 1) := by
    rw [← hki, ← List.drop_eq_getElem_cons hi, List.take_append_drop]
  rw [innerItems]
  conv_lhs => rw [hsplit]
  rw [placeSortKeys_append, placeSortKeys_cons, itemsBefore]

theorem mem_innerItems_of_mem_placedIn {i : Nat} (hk : q.orderBy[i]? = some k) {c : SelectItem}
    (hc : c ∈ k.placedIn (q.itemsBefore i)) : c ∈ q.innerItems := by
  obtain ⟨added, happend, -⟩ :=
    placeSortKeys_fst (k.placedIn (q.itemsBefore i)) (q.orderBy.drop (i + 1))
  rw [innerItems_eq_placeSortKeys hk, happend]
  exact List.mem_append_left _ hc

/-- Only a name that ends in a number is captured, unless it is the name of a column of the
query. -/
theorem exists_numberedName_of_isCapturedBy {i : Nat}
    (hout : ∀ c ∈ q.items, c.outputName ≠ some k.field)
    (h : k.IsCapturedBy (q.itemsBefore i)) : ∃ stem n, k.field = numberedName stem n := by
  obtain ⟨hnone, c, hc, hname⟩ := h
  have hshows := hnone c hc
  obtain ⟨added, happend, hadded⟩ := placeSortKeys_fst q.shownItems (q.orderBy.take i)
  rw [itemsBefore, happend] at hc
  rcases List.mem_append.mp hc with hc | hc
  · obtain ⟨d, hd, n, hdc⟩ := q.namedByPosition_shownItems.exists_getsName hc
    unfold SelectItem.GetsName at hdc
    split at hdc
    · obtain ⟨others, rfl⟩ := hdc
      have hfield := Option.some.inj hname
      rcases freshName_eq_or others (numberedName "col" n) with hstem | ⟨m, -, -, hnumber⟩
      · exact ⟨_, _, by rw [← hfield, hstem]⟩
      · exact ⟨_, _, by rw [← hfield, hnumber]⟩
    · rw [hdc] at hname
      exact absurd hname (hout d (List.mem_filter.mp hd).1)
  · obtain ⟨j, -, more, -, rfl⟩ := hadded c hc
    have hfield := Option.some.inj ((j.outputName_hiddenItem _).symm.trans hname)
    rcases freshName_eq_or (q.shownItems ++ more) j.field with hstem | ⟨m, -, -, hnumber⟩
    · have hown : (j.hiddenItem j.field).showsField j.field = true :=
        beq_self_eq_true (some j.field)
      rw [← hfield, hstem, hown] at hshows
      contradiction
    · exact ⟨_, _, by rw [← hfield, hnumber]⟩

/-- A sort key without a table that is no column of the query is sorted by one name in both blocks,
and one column of the inner block has this name, in any case of the letters. It shows a field of
the name of the key exactly if the key is not captured by the columns that it is looked up among.
Only a name that ends in a number is captured. -/
theorem sortsOnField_iff {i : Nat} (hp : q.page = some p) (hne : q.items ≠ [])
    (hstar : ∀ c ∈ q.items, c.expr.isStar = false) (hnames : NamesApart q.items)
    (hk : q.orderBy[i]? = some k) (htable : k.table = none)
    (hout : ∀ c ∈ q.items, c.outputName ≠ some k.field) :
    ∃ b middle inner order name c,
      q.numberedBlocks? = .ok b ∧ b.source = .ofQuery middle rowFilterName ∧
      middle.source = .ofQuery inner wrapperName ∧
      middle.items = [allColumnsOf wrapperName, ⟨.rowNumber order, some rowNumberName⟩] ∧
      order[i]? = some ⟨name, some wrapperName, k.direction⟩ ∧
      b.orderBy[i]? = some ⟨name, some rowFilterName, k.direction⟩ ∧
      c ∈ inner.items ∧ c.outputName = some name ∧
      (∀ d ∈ inner.items, d.isNamed name = true → d = c) ∧
      ((∃ table, c.expr = .field table k.field) ↔ ¬k.IsCapturedBy (q.itemsBefore i)) ∧
      (k.IsCapturedBy (q.itemsBefore i) → ∃ stem n, k.field = numberedName stem n) := by
  have ho : q.orderBy ≠ [] := List.ne_nil_of_mem (List.mem_of_getElem? hk)
  have hcovered : k.isCovered (q.itemsBefore i) = false := by
    refine k.isCovered_eq_false (placeSortKeys_ne_nil ?_)
      (isStar_of_mem_placeSortKeys (isStar_of_mem_shownItems hstar))
    rwa [Ne, q.shownItems_eq_nil_iff, hnames.withoutRowNumber_eq]
  have happart : NamesApart q.shownItems := by
    rw [shownItems, hnames.withoutRowNumber_eq]
    exact NamesApart.namePositions hnames
  have hnodup : (usedNames q.innerItems).Nodup :=
    nodup_usedNames_placeSortKeys (List.nodup_cons.mp happart).2
  obtain ⟨c, hc, hname, hiff⟩ := SortKey.exists_mem_placedIn htable hcovered
  have hmem := mem_innerItems_of_mem_placedIn hk hc
  rw [SelectItem.showsField_iff] at hiff
  exact ⟨_, _, _, _, _, c, numberedBlocks?_eq_outerBlock hp ho, rfl, rfl, rfl,
    getElem?_sortKeysOf_sortNames hk wrapperName, getElem?_sortKeysOf_sortNames hk rowFilterName,
    hmem, hname, fun d hd hsame => eq_of_isNamed hnodup hmem hd hname hsame, hiff,
    exists_numberedName_of_isCapturedBy hout⟩

/-- The second page of the counts of orders by customer, in the order of the customers. -/
def groupedPage : Select :=
  { secondPage with
    items := [{ expr := .aggregate .count none false, aliasName := none }]
    groupBy := [{ field := "customer", table := none }]
    orderBy := [{ field := "customer", table := none, direction := .asc }] }

/-- The page is sorted by a column that shows the customers. -/
theorem sortsOnField_grouped :
    groupedPage.page = some ⟨1, 2⟩ ∧ groupedPage.items ≠ [] ∧
    (∀ c ∈ groupedPage.items, c.expr.isStar = false) ∧ NamesApart groupedPage.items ∧
    groupedPage.orderBy[0]? = some ⟨"customer", none, .asc⟩ ∧
    (∀ c ∈ groupedPage.items, c.outputName ≠ some "customer") ∧
    ∃ b middle inner name c, groupedPage.numberedBlocks? = .ok b ∧
      b.source = .ofQuery middle rowFilterName ∧ middle.source = .ofQuery inner wrapperName ∧
      b.orderBy[0]? = some ⟨name, some rowFilterName, .asc⟩ ∧
      c ∈ inner.items ∧ c.outputName = some name ∧ ∃ table, c.expr = .field table "customer" := by
  have hne : groupedPage.items ≠ [] := List.cons_ne_nil _ _
  have hstar : ∀ c ∈ groupedPage.items, c.expr.isStar = false := List.forall_mem_singleton.mpr rfl
  have hnames : NamesApart groupedPage.items := by decide +kernel
  have hout : ∀ c ∈ groupedPage.items, c.outputName ≠ some "customer" :=
    List.forall_mem_singleton.mpr (by decide)
  obtain ⟨b, middle, inner, -, name, c, hb, hmiddle, hinner, -, -, horder, hc, hname, -, hiff,
      hnumber⟩ :=
    sortsOnField_iff (q := groupedPage) (k := ⟨"customer", none, .asc⟩) (i := 0) rfl hne hstar
      hnames rfl rfl hout
  have hfree : ¬SortKey.IsCapturedBy ⟨"customer", none, .asc⟩ (groupedPage.itemsBefore 0) := by
    intro hcaptured
    obtain ⟨stem, n, hfield⟩ := hnumber hcaptured
    have hdigit := List.any_eq_true.mpr (exists_isDigit_mem_numberedName stem n)
    rw [← hfield] at hdigit
    exact absurd hdigit (by decide)
  exact ⟨rfl, hne, hstar, hnames, rfl, hout, b, middle, inner, name, c, hb, hmiddle, hinner, horder,
    hc, hname, hiff.mpr hfree⟩

/-- The second page of the counts of orders by a column that is named like a first column without a
name, in the order of this column. -/
def countedPage : Select :=
  { secondPage with
    items := [{ expr := .aggregate .count none false, aliasName := none }]
    groupBy := [{ field := "col1", table := none }]
    orderBy := [{ field := "col1", table := none, direction := .asc }] }

/-- The page is sorted by the counts. -/
theorem not_sortsOnField_counted :
    (Statement.select countedPage).validate = .ok () ∧
    (∀ c ∈ countedPage.items, c.expr.isStar = false) ∧ NamesApart countedPage.items ∧
    countedPage.orderBy[0]? = some ⟨"col1", none, .asc⟩ ∧
    (∀ c ∈ countedPage.items, c.outputName ≠ some "col1") ∧
    ∃ b middle inner order, countedPage.numberedBlocks? = .ok b ∧
      b.source = .ofQuery middle rowFilterName ∧ middle.source = .ofQuery inner wrapperName ∧
      middle.items = [allColumnsOf wrapperName, ⟨.rowNumber order, some rowNumberName⟩] ∧
      order[0]? = some ⟨"col1", some wrapperName, .asc⟩ ∧
      b.orderBy[0]? = some ⟨"col1", some rowFilterName, .asc⟩ ∧
      inner.items = [⟨.aggregate .count none false, some "col1"⟩] := by
  have ho : countedPage.orderBy ≠ [] := List.cons_ne_nil _ _
  have hnames : countedPage.sortNames = [("col1", .asc)] := by decide +kernel
  have hkeys (source : String) : (sortKeysOf source countedPage.sortNames)[0]? =
      some ⟨"col1", some source, .asc⟩ := by
    rw [hnames]
    rfl
  have hapart : NamesApart countedPage.items := by decide +kernel
  have hname : freshName countedPage.items (numberedName "col" 1) = "col1" := by decide +kernel
  have hshown : countedPage.shownItems = [⟨.aggregate .count none false, some "col1"⟩] := by
    rw [shownItems, hapart.withoutRowNumber_eq, ← hname]
    rfl
  have hitems : countedPage.innerItems = [⟨.aggregate .count none false, some "col1"⟩] := by
    have hcaptured : SortKey.IsShownBy ⟨"col1", none, .asc⟩ countedPage.shownItems := by
      rw [hshown]
      exact .inr ⟨_, List.mem_cons_self, .inr (.inl ⟨rfl, rfl⟩)⟩
    show (placeSortKeys countedPage.shownItems [⟨"col1", none, .asc⟩]).1 = _
    rw [placeSortKeys_cons, SortKey.placedIn_of_isShownBy hcaptured, placeSortKeys, hshown]
  exact ⟨rfl, List.forall_mem_singleton.mpr rfl, hapart, rfl,
    List.forall_mem_singleton.mpr (by decide), _, _, _, _, numberedBlocks?_eq_outerBlock rfl ho,
    rfl, rfl, rfl, hkeys wrapperName, hkeys rowFilterName, hitems⟩

end Select

end SqlTree
