import SqlTree.Proofs.Paging.HiddenColumns

/-!
# The column of the row numbers

The middle block shows all columns of the inner block beside the row numbers, and the outer block
tells the row numbers by their name. Columns of the query with this name are dropped, and positions
give other names. What is left are sort keys: one of this name that is not shown hides a column
under it.

Results:
* `isTaken_placeSortKeys`: a sort key that is not shown leaves a column of its name.
* `Select.rowNumber_unique_iff`: no column of the inner block is named like the row numbers exactly
  if the columns of the query show every sort key of that name.
* `Select.not_rowNumber_unique_numbers`: a query for which a column is dropped and hidden again.
-/

namespace SqlTree

theorem isTaken_append (xs ys : List SelectItem) (name : String) :
    isTaken (xs ++ ys) name = (isTaken xs name || isTaken ys name) :=
  List.any_append

/-! ## Names of hidden columns -/

/-- A fresh name is its stem, unless that is in use. Either way the stem is in use afterwards. -/
theorem isTaken_hiddenItem_freshName (k : SortKey) (items : List SelectItem) :
    isTaken (items ++ [k.hiddenItem (freshName items k.field)]) k.field = true := by
  rw [isTaken_append, Bool.or_eq_true, or_iff_not_imp_left, Bool.not_eq_true]
  intro hfree
  have hname : freshName items k.field = k.field := by
    simp [freshName, candidateNames, hfree]
  rw [hname, isTaken, List.any_cons, Bool.or_eq_true]
  exact .inl (SelectItem.isNamed_iff.mpr ⟨_, k.outputName_hiddenItem _, rfl⟩)

/-- If a key is shown only since a column was hidden for another key, its name is in use. -/
theorem SortKey.isTaken_of_isShownBy_hiddenItem {j k : SortKey} {items : List SelectItem}
    (hnot : ¬k.IsShownBy items)
    (h : k.IsShownBy (items ++ [j.hiddenItem (freshName items j.field)])) :
    isTaken (items ++ [j.hiddenItem (freshName items j.field)]) k.field = true := by
  obtain ⟨i, hi, hshows⟩ := h.resolve_left (by simp)
  rcases List.mem_append.mp hi with hi | hi
  · exact absurd (.inr ⟨i, hi, hshows⟩) hnot
  obtain rfl := List.mem_singleton.mp hi
  rcases hshows with hsorts | ⟨-, hname⟩ | hstar
  · have hfield : (some j.field == some k.field) = true := showsField_of_sortsOn hsorts
    exact Option.some.inj (beq_iff_eq.mp hfield) ▸ isTaken_hiddenItem_freshName j items
  · rw [isTaken_append, isTaken, isTaken, List.any_cons,
      SelectItem.isNamed_iff.mpr ⟨_, hname, rfl⟩, Bool.true_or, Bool.or_true]
  · exact absurd (k.isStar_of_isCoveredBy hstar) (by simp [SortKey.hiddenItem, Expr.isStar])

/-- A sort key that columns do not show leaves a column of its name, be it one that was hidden for
another key. -/
theorem isTaken_placeSortKeys {items : List SelectItem} {ks : List SortKey} {k : SortKey}
    (hk : k ∈ ks) (hnot : ¬k.IsShownBy items) :
    isTaken (placeSortKeys items ks).1 k.field = true := by
  have hmono (xs : List SelectItem) (js : List SortKey) (h : isTaken xs k.field = true) :
      isTaken (placeSortKeys xs js).1 k.field = true := by
    obtain ⟨added, happend, -⟩ := placeSortKeys_fst xs js
    rw [happend, isTaken_append, h, Bool.true_or]
  -- As long as `k` is not shown its turn is yet to come, and once a column hidden for another key
  -- shows it, the name is in use.
  induction ks generalizing items with
  | nil => simp at hk
  | cons j ks ih =>
    rw [placeSortKeys_cons]
    by_cases hj : j.IsShownBy items
    · rw [SortKey.placedIn_of_isShownBy hj]
      refine ih ((List.mem_cons.mp hk).resolve_left ?_) hnot
      rintro rfl
      exact hnot hj
    · rw [SortKey.placedIn_of_not_isShownBy hj]
      rcases List.mem_cons.mp hk with rfl | hk
      · exact hmono _ ks (isTaken_hiddenItem_freshName k items)
      · by_cases hshown : k.IsShownBy (items ++ [j.hiddenItem (freshName items j.field)])
        · exact hmono _ ks (SortKey.isTaken_of_isShownBy_hiddenItem hnot hshown)
        · exact ih hk hshown

/-- A hidden column is named like the row numbers only if its sort key is. -/
theorem SortKey.HidesBehind.sameName_of_isNamed {k : SortKey} {items : List SelectItem}
    {i : SelectItem} (h : k.HidesBehind items i) (hrow : i.isNamed rowNumberName = true) :
    sameName k.field rowNumberName = true := by
  obtain ⟨-, more, rfl⟩ := h
  obtain ⟨name, hname, hsame⟩ := SelectItem.isNamed_iff.mp hrow
  obtain rfl := Option.some.inj ((k.outputName_hiddenItem _).symm.trans hname)
  by_contra hother
  exact toLower_freshName_ne_rowNumberName (items ++ more) (mt sameName_iff.mpr hother) hsame

/-! ## Columns with the name of the row numbers -/

namespace Select

variable {q : Select} {p : Page}

/-- No column that a page shows is named like the row numbers. -/
theorem isNamed_rowNumberName_of_mem_shownItems {i : SelectItem} (hi : i ∈ q.shownItems) :
    i.isNamed rowNumberName = false := by
  obtain ⟨j, hj, n, hij⟩ := q.namedByPosition_shownItems.exists_getsName hi
  unfold SelectItem.GetsName at hij
  split at hij
  · obtain ⟨others, rfl⟩ := hij
    rw [Bool.eq_false_iff, Ne, SelectItem.isNamed_iff]
    rintro ⟨name, hname, hrow⟩
    obtain rfl := Option.some.inj hname
    exact toLower_freshName_ne_rowNumberName others (toLower_numberedName_ne_rowNumberName _ _) hrow
  · rw [hij]
    simpa using (List.mem_filter.mp hj).2

theorem isTaken_rowNumberName_innerItems_iff :
    isTaken q.innerItems rowNumberName = true ↔
      ∃ k ∈ q.orderBy, sameName k.field rowNumberName = true ∧ ¬k.IsShownBy q.shownItems := by
  constructor
  · intro htaken
    obtain ⟨i, hi, hrow⟩ := List.any_eq_true.mp htaken
    obtain ⟨hidden, happend, hhides, -⟩ := exists_hidden_placeSortKeys q.shownItems q.orderBy
    rw [innerItems, happend] at hi
    rcases List.mem_append.mp hi with hi | hi
    · rw [isNamed_rowNumberName_of_mem_shownItems hi] at hrow
      contradiction
    · obtain ⟨k, hk, hki⟩ := hhides i hi
      exact ⟨k, hk, hki.sameName_of_isNamed hrow, hki.notShown⟩
  · rintro ⟨k, hk, hrow, hnot⟩
    have htaken := isTaken_placeSortKeys hk hnot
    rw [isTaken_iff, sameName_iff.mp hrow] at htaken
    exact isTaken_iff.mpr htaken

/-- A sort key that is named like the row numbers finds no column by name, so naming by position
does not change whether it is shown. -/
theorem isShownBy_shownItems_iff {k : SortKey} (hrow : sameName k.field rowNumberName = true) :
    k.IsShownBy q.shownItems ↔ k.IsShownBy (withoutRowNumber q.items) := by
  have hnamed {items : List SelectItem} (hfree : ∀ i ∈ items, i.isNamed rowNumberName = false) :
      k.IsShownBy items ↔ items = [] ∨ (∃ i ∈ items, k.sortsOn ⟨i.expr, none⟩ = true) ∨
        ∃ i ∈ items, k.isCoveredBy ⟨i.expr, none⟩ = true := by
    have hname : ∀ i ∈ items, ¬(k.table = none ∧ i.outputName = some k.field) := by
      rintro i hi ⟨-, hname⟩
      have hnot := hfree i hi
      rw [SelectItem.isNamed_iff.mpr ⟨_, hname, sameName_iff.mp hrow⟩] at hnot
      contradiction
    have hsorts (i : SelectItem) : k.sortsOn ⟨i.expr, none⟩ = k.sortsOn i := rfl
    have hcovers (i : SelectItem) : k.isCoveredBy ⟨i.expr, none⟩ = k.isCoveredBy i := rfl
    simp only [SortKey.IsShownBy, hsorts, hcovers]
    grind
  have hkept : ∀ i ∈ withoutRowNumber q.items, i.isNamed rowNumberName = false := fun i hi => by
    simpa using (List.mem_filter.mp hi).2
  rw [hnamed hkept, hnamed fun i hi => isNamed_rowNumberName_of_mem_shownItems hi,
    q.shownItems_eq_nil_iff,
    exists_expr_iff_of_map_eq q.map_expr_shownItems (k.sortsOn ⟨·, none⟩ = true),
    exists_expr_iff_of_map_eq q.map_expr_shownItems (k.isCoveredBy ⟨·, none⟩ = true)]

/-- No column of the inner block has the name of the row numbers beside it, in any case of the
letters, exactly if every sort key of that name is shown by the columns of the query that have
another name. -/
theorem rowNumber_unique_iff (hp : q.page = some p) (ho : q.orderBy ≠ []) :
    ∃ b middle inner order,
      q.numberedBlocks? = .ok b ∧ b.source = .ofQuery middle rowFilterName ∧
      middle.source = .ofQuery inner wrapperName ∧
      middle.items = [allColumnsOf wrapperName, ⟨.rowNumber order, some rowNumberName⟩] ∧
      ((∀ i ∈ inner.items, i.isNamed rowNumberName = false) ↔
        ∀ k ∈ q.orderBy, sameName k.field rowNumberName = true →
          k.IsShownBy (withoutRowNumber q.items)) := by
  refine ⟨_, _, _, _, numberedBlocks?_eq_outerBlock hp ho, rfl, rfl, rfl, ?_⟩
  show (∀ i ∈ q.innerItems, i.isNamed rowNumberName = false) ↔ _
  have hfree : (∀ i ∈ q.innerItems, i.isNamed rowNumberName = false) ↔
      ¬isTaken q.innerItems rowNumberName = true := by
    simp [isTaken]
  rw [hfree, isTaken_rowNumberName_innerItems_iff]
  constructor
  · intro hnone k hk hrow
    by_contra hnot
    exact hnone ⟨k, hk, hrow, mt (isShownBy_shownItems_iff hrow).mp hnot⟩
  · rintro hall ⟨k, hk, hrow, hnot⟩
    exact hnot ((isShownBy_shownItems_iff hrow).mpr (hall k hk hrow))

/-- The second page of orders by numbers of their own, which the page shows under another name. -/
def positionsPage : Select :=
  { secondPage with
    items := [{ expr := .field (some "orders") "row_number", aliasName := some "position" }]
    orderBy := [{ field := "row_number", table := some "orders", direction := .asc }] }

/-- The row numbers of the page are the only column of their name. -/
theorem rowNumber_unique_positions :
    positionsPage.page = some ⟨1, 2⟩ ∧ positionsPage.orderBy ≠ [] ∧
    ∃ b middle inner, positionsPage.numberedBlocks? = .ok b ∧
      b.source = .ofQuery middle rowFilterName ∧ middle.source = .ofQuery inner wrapperName ∧
      ∀ i ∈ inner.items, i.isNamed rowNumberName = false := by
  have ho : positionsPage.orderBy ≠ [] := List.cons_ne_nil _ _
  have hkept : withoutRowNumber positionsPage.items = positionsPage.items :=
    NamesApart.withoutRowNumber_eq (by decide +kernel)
  obtain ⟨b, middle, inner, order, hb, hmiddle, hinner, -, hiff⟩ :=
    rowNumber_unique_iff (q := positionsPage) rfl ho
  have hshown : ∀ k ∈ positionsPage.orderBy, sameName k.field rowNumberName = true →
      k.IsShownBy (withoutRowNumber positionsPage.items) := by
    rw [hkept]
    exact List.forall_mem_singleton.mpr fun _ =>
      .inr ⟨_, List.mem_cons_self, .inl (by decide)⟩
  exact ⟨rfl, ho, b, middle, inner, hb, hmiddle, hinner, hiff.mpr hshown⟩

/-- The second page of orders with numbers of their own, by these numbers. -/
def numbersPage : Select :=
  { secondPage with
    items := [columnOf "orders" "id", columnOf "orders" "row_number"]
    orderBy := [{ field := "row_number", table := some "orders", direction := .asc }] }

/-- The numbers are dropped, and hidden under the same name for the sort key. -/
theorem not_rowNumber_unique_numbers :
    (Statement.select numbersPage).validate = .ok () ∧
    ∃ b middle inner order,
      numbersPage.numberedBlocks? = .ok b ∧ b.source = .ofQuery middle rowFilterName ∧
      middle.source = .ofQuery inner wrapperName ∧
      middle.items = [allColumnsOf wrapperName, ⟨.rowNumber order, some rowNumberName⟩] ∧
      inner.items = [columnOf "orders" "id", columnOf "orders" "row_number"] ∧
      ¬∀ i ∈ inner.items, i.isNamed rowNumberName = false := by
  have ho : numbersPage.orderBy ≠ [] := List.cons_ne_nil _ _
  have hrow : (columnOf "orders" "row_number").isNamed rowNumberName = true :=
    sameName_of_toList (by decide)
  have hid : (columnOf "orders" "id").isNamed rowNumberName = false := by decide +kernel
  have hkept : withoutRowNumber numbersPage.items = [columnOf "orders" "id"] := by
    simp [withoutRowNumber, numbersPage, hid, hrow]
  have hshown : numbersPage.shownItems = [columnOf "orders" "id"] := by
    rw [shownItems, hkept]
    rfl
  have hname : freshName [columnOf "orders" "id"] "row_number" = "row_number" := by decide +kernel
  have hitems : numbersPage.innerItems =
      [columnOf "orders" "id", columnOf "orders" "row_number"] := by
    have hnot : ¬SortKey.IsShownBy ⟨"row_number", some "orders", .asc⟩ numbersPage.shownItems :=
      SortKey.not_isShownBy_iff.mpr (by rw [hshown]; exact ⟨by decide, by decide⟩)
    rw [innerItems_of_not_isShownBy rfl hnot, hshown, hname]
    rfl
  refine ⟨rfl, _, _, _, _, numberedBlocks?_eq_outerBlock rfl ho, rfl, rfl, rfl, hitems, ?_⟩
  intro hall
  have hother : (columnOf "orders" "row_number").isNamed rowNumberName = false :=
    hall _ (hitems.symm ▸ List.mem_cons_of_mem _ List.mem_cons_self)
  rw [hrow] at hother
  contradiction

end Select

end SqlTree
