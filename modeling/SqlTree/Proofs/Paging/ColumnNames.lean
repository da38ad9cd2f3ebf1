import SqlTree.Proofs.Paging.Columns
import SqlTree.Proofs.Paging.FreshNames

/-!
# Names in the inner block

The blocks of a page refer to columns by name. That is sound if every column of the inner block has
a name, no two columns have one name, none is named like the row numbers, and the name of a sort
key is the name of a column that shows the field of the key.

Results:
* `NamesApart.namePositions`, `NamesApart.placeSortKeys`: names of columns that were apart stay
  apart when columns are named and added.
* `Select.Numberable.isSome_outputName_of_mem_shownItems`: every column that a page shows has a
  name.
* `Select.Numberable.forall₂_sortNames`: each sort key gets the name of a column that shows its
  field, and keeps its direction.
-/

namespace SqlTree

/-! ## Names apart -/

/-- No two columns have one name, and none has that of the row numbers, if case is ignored. -/
def NamesApart (items : List SelectItem) : Prop :=
  (rowNumberName.toLower :: usedNames items).Nodup

instance (items : List SelectItem) : Decidable (NamesApart items) :=
  inferInstanceAs (Decidable (List.Nodup _))

theorem usedNames_append (xs ys : List SelectItem) :
    usedNames (xs ++ ys) = usedNames xs ++ usedNames ys :=
  List.filterMap_append

theorem usedNames_cons_of_none {i : SelectItem} (items : List SelectItem)
    (h : i.outputName = none) : usedNames (i :: items) = usedNames items := by
  simp [usedNames, h]

theorem usedNames_cons_of_some {i : SelectItem} {name : String} (items : List SelectItem)
    (h : i.outputName = some name) :
    usedNames (i :: items) = name.toLower :: usedNames items := by
  simp [usedNames, h]

/-- A column with a new name may be put in anywhere. -/
theorem NamesApart.insert {xs ys : List SelectItem} {i : SelectItem} {name : String}
    (h : NamesApart (xs ++ ys)) (hi : i.outputName = some name)
    (hfree : name.toLower ∉ usedNames (xs ++ ys))
    (hrow : name.toLower ≠ rowNumberName.toLower) : NamesApart (xs ++ i :: ys) := by
  unfold NamesApart at h ⊢
  rw [usedNames_append] at h hfree
  rw [usedNames_append, usedNames_cons_of_some ys hi, ← List.cons_append, List.nodup_middle,
    List.cons_append, List.nodup_cons]
  refine ⟨?_, h⟩
  rw [List.mem_cons, not_or]
  exact ⟨hrow, hfree⟩

theorem NamesApart.withoutRowNumber_eq {items : List SelectItem} (h : NamesApart items) :
    withoutRowNumber items = items := by
  refine List.filter_eq_self.mpr fun i hi => ?_
  rw [Bool.not_eq_true']
  cases hn : i.isNamed rowNumberName with
  | false => rfl
  | true =>
    have htaken : isTaken items rowNumberName = true := List.any_eq_true.mpr ⟨i, hi, hn⟩
    exact absurd (isTaken_iff.mp htaken) (List.nodup_cons.mp h).1

/-! ## Naming by position -/

theorem NamesApart.namePositions {before items : List SelectItem}
    (h : NamesApart (before ++ items)) : NamesApart (namePositions before items) := by
  induction items generalizing before with
  | nil => rwa [SqlTree.namePositions, ← List.append_nil before]
  | cons i rest ih =>
    rw [SqlTree.namePositions]
    split
    · rename_i hunnamed
      refine ih ?_
      have hnone : i.outputName = none := Option.isNone_iff_eq_none.mp hunnamed.1
      have hsame : usedNames (before ++ i :: rest) = usedNames (before ++ rest) := by
        rw [usedNames_append, usedNames_append, usedNames_cons_of_none rest hnone]
      rw [List.append_assoc, List.singleton_append]
      refine NamesApart.insert (by rwa [NamesApart, ← hsame]) rfl ?_ ?_
      · rw [← hsame]
        exact toLower_freshName_notMem _ _
      · exact toLower_freshName_ne_rowNumberName _ (toLower_numberedName_ne_rowNumberName _ _)
    · refine ih ?_
      rwa [List.append_assoc, List.singleton_append]

/-- A column is a star or has a name. -/
def SelectItem.IsStarOrNamed (i : SelectItem) : Prop :=
  i.expr.isStar = true ∨ i.outputName.isSome = true

/-- Naming by position leaves no column without a name, unless it is a star. -/
theorem isStarOrNamed_of_mem_namePositions {before items : List SelectItem}
    (hbefore : ∀ i ∈ before, i.IsStarOrNamed) :
    ∀ i ∈ namePositions before items, i.IsStarOrNamed := by
  induction items generalizing before with
  | nil => exact hbefore
  | cons i rest ih =>
    rw [namePositions]
    split
    · refine ih (List.forall_mem_append.mpr ⟨hbefore, ?_⟩)
      exact List.forall_mem_singleton.mpr (.inr rfl)
    · rename_i hnamed
      refine ih (List.forall_mem_append.mpr ⟨hbefore, List.forall_mem_singleton.mpr ?_⟩)
      cases hstar : i.expr.isStar with
      | true => exact .inl hstar
      | false =>
        cases hname : i.outputName with
        | none => exact absurd ⟨by rw [hname]; rfl, hstar⟩ hnamed
        | some name => exact .inr (by rw [hname]; rfl)

theorem isStarOrNamed_of_mem_shownItems (q : Select) : ∀ i ∈ q.shownItems, i.IsStarOrNamed :=
  isStarOrNamed_of_mem_namePositions (by simp)

/-! ## Columns for sort keys -/

theorem SortKey.outputName_hiddenItem (k : SortKey) (name : String) :
    (k.hiddenItem name).outputName = some name := by
  unfold SortKey.hiddenItem SelectItem.outputName
  by_cases h : name = k.field
  · simp [h, Expr.outputName]
  · simp [h]

theorem NamesApart.placeSortKeys {items : List SelectItem} {ks : List SortKey}
    (h : NamesApart items) (hks : ∀ k ∈ ks, k.field.toLower ≠ rowNumberName.toLower) :
    NamesApart (placeSortKeys items ks).1 := by
  refine placeSortKeys_induction h fun k hk items hitems _ _ => ?_
  refine NamesApart.insert (by rwa [List.append_nil]) (k.outputName_hiddenItem _) ?_ ?_
  · rw [List.append_nil]
    exact toLower_freshName_notMem items k.field
  · exact toLower_freshName_ne_rowNumberName items (hks k hk)

/-- Some column has a name and shows the field of a sort key. -/
def ShowsUnder (items : List SelectItem) (k : SortKey) (name : String) : Prop :=
  ∃ i ∈ items, i.outputName = some name ∧ i.expr = .field k.table k.field

/-- The name that is found for a sort key with a table is that of a column that shows its field. -/
theorem SortKey.showsUnder_of_outputName? {k : SortKey} {items : List SelectItem} {name : String}
    (hk : k.table.isSome = true) (h : k.outputName? items = some name) :
    ShowsUnder items k name := by
  obtain ⟨table, ht⟩ := Option.isSome_iff_exists.mp hk
  have hfind : (items.find? k.sortsOn).bind SelectItem.outputName = some name := by
    simpa [SortKey.outputName?, ht] using h
  obtain ⟨i, hi, hname⟩ := Option.bind_eq_some_iff.mp hfind
  refine ⟨i, List.mem_of_find?_eq_some hi, hname, ?_⟩
  have hsorts := List.find?_some hi
  unfold SortKey.sortsOn at hsorts
  split at hsorts
  · rename_i t field he
    rw [ht] at hsorts
    cases t with
    | none => simp at hsorts
    | some t =>
      simp only [Bool.and_eq_true, beq_iff_eq] at hsorts
      rw [he, ht, hsorts.1, hsorts.2]
  · simp at hsorts

theorem SortKey.isCovered_eq_false {k : SortKey} {items : List SelectItem} (hne : items ≠ [])
    (hstar : ∀ i ∈ items, i.expr.isStar = false) : k.isCovered items = false := by
  have hempty : items.isEmpty = false := by simpa using hne
  have hnone : items.any k.isCoveredBy = false := by
    rw [List.any_eq_false]
    intro i hi hc
    exact absurd (k.isStar_of_isCoveredBy hc) (by simp [hstar i hi])
  rw [SortKey.isCovered_eq, hempty, hnone, Bool.or_self]

theorem ShowsUnder.mono {items more : List SelectItem} {k : SortKey} {name : String}
    (h : ShowsUnder items k name) : ShowsUnder (items ++ more) k name := by
  obtain ⟨i, hi, hname⟩ := h
  exact ⟨i, List.mem_append_left _ hi, hname⟩

theorem SortKey.isStar_of_mem_placedIn {k : SortKey} {items : List SelectItem}
    (hstar : ∀ i ∈ items, i.expr.isStar = false) :
    ∀ i ∈ k.placedIn items, i.expr.isStar = false := by
  unfold SortKey.placedIn
  split
  · exact List.forall_mem_append.mpr ⟨hstar, List.forall_mem_singleton.mpr rfl⟩
  · exact hstar

theorem SortKey.placedIn_ne_nil {k : SortKey} {items : List SelectItem} (hne : items ≠ []) :
    k.placedIn items ≠ [] := by
  unfold SortKey.placedIn
  split
  · simp
  · exact hne

/-- Where no stars are, a sort key with a table gets the name of a column that shows its field. -/
theorem SortKey.showsUnder_placedIn {k : SortKey} {items : List SelectItem} (hne : items ≠ [])
    (hstar : ∀ i ∈ items, i.expr.isStar = false) (hk : k.table.isSome = true) :
    ShowsUnder (k.placedIn items) k (k.nameIn items) := by
  have hcovered := k.isCovered_eq_false hne hstar
  unfold SortKey.placedIn SortKey.nameIn
  cases hname : k.outputName? items with
  | some name =>
    rw [if_neg (by simp)]
    exact SortKey.showsUnder_of_outputName? hk hname
  | none =>
    rw [if_pos ⟨rfl, hcovered⟩, hcovered]
    exact ⟨_, List.mem_append_right _ List.mem_cons_self, k.outputName_hiddenItem _, rfl⟩

theorem ShowsUnder.placeSortKeys {items : List SelectItem} {k : SortKey} {name : String}
    (h : ShowsUnder items k name) (ks : List SortKey) :
    ShowsUnder (placeSortKeys items ks).1 k name := by
  obtain ⟨added, happend, -⟩ := placeSortKeys_fst items ks
  rw [happend]
  exact h.mono

/-- Sort keys with tables get the names of columns that show their fields, and keep their
directions. -/
theorem forall₂_placeSortKeys {items : List SelectItem} {ks : List SortKey} (hne : items ≠ [])
    (hstar : ∀ i ∈ items, i.expr.isStar = false) (hks : ∀ k ∈ ks, k.table.isSome = true) :
    List.Forall₂ (fun k n => ShowsUnder (placeSortKeys items ks).1 k n.1 ∧ n.2 = k.direction) ks
      (placeSortKeys items ks).2 := by
  induction ks generalizing items with
  | nil => exact .nil
  | cons k ks ih =>
    obtain ⟨hk, hrest⟩ := List.forall_mem_cons.mp hks
    rw [placeSortKeys_cons]
    refine .cons ⟨(k.showsUnder_placedIn hne hstar hk).placeSortKeys ks, rfl⟩ ?_
    exact ih (SortKey.placedIn_ne_nil hne) (SortKey.isStar_of_mem_placedIn hstar) hrest

/-! ## Queries -/

namespace Select

/-- A query whose page can be cut out by row numbers whatever its rows are: it shows distinct
columns and no stars, no column is named like the row numbers, and it is sorted by fields of named
tables. -/
structure Numberable (q : Select) : Prop where
  notDistinct : q.distinct = false
  hasItems : q.items ≠ []
  noStar : ∀ i ∈ q.items, i.expr.isStar = false
  namesApart : NamesApart q.items
  hasOrder : q.orderBy ≠ []
  keysInTables : ∀ k ∈ q.orderBy, k.table.isSome = true
  keysApart : ∀ k ∈ q.orderBy, k.field.toLower ≠ rowNumberName.toLower

namespace Numberable

variable {q : Select} (h : q.Numberable)

include h

theorem shownItems_eq : q.shownItems = namePositions [] q.items := by
  rw [shownItems, h.namesApart.withoutRowNumber_eq]

theorem map_expr_shownItems :
    q.shownItems.map SelectItem.expr = q.items.map SelectItem.expr := by
  rw [q.map_expr_shownItems, h.namesApart.withoutRowNumber_eq]

theorem shownItems_ne_nil : q.shownItems ≠ [] := by
  rw [Ne, q.shownItems_eq_nil_iff, h.namesApart.withoutRowNumber_eq]
  exact h.hasItems

theorem isStar_of_mem_shownItems : ∀ i ∈ q.shownItems, i.expr.isStar = false := by
  exact Select.isStar_of_mem_shownItems h.noStar

theorem isSome_outputName_of_mem_shownItems : ∀ i ∈ q.shownItems, i.outputName.isSome = true := by
  intro i hi
  rcases isStarOrNamed_of_mem_shownItems q i hi with hstar | hname
  · rw [h.isStar_of_mem_shownItems i hi] at hstar
    contradiction
  · exact hname

theorem namesApart_shownItems : NamesApart q.shownItems := by
  rw [h.shownItems_eq]
  exact NamesApart.namePositions h.namesApart

/-- The columns of the inner block have names that are apart. -/
theorem namesApart_innerItems : NamesApart q.innerItems :=
  NamesApart.placeSortKeys h.namesApart_shownItems h.keysApart

theorem innerItems_ne_nil : q.innerItems ≠ [] :=
  placeSortKeys_ne_nil h.shownItems_ne_nil

theorem isStar_of_mem_innerItems : ∀ i ∈ q.innerItems, i.expr.isStar = false :=
  isStar_of_mem_placeSortKeys h.isStar_of_mem_shownItems

/-- Each sort key gets the name of a column of the inner block that shows its field. -/
theorem forall₂_sortNames :
    List.Forall₂ (fun k n => ShowsUnder q.innerItems k n.1 ∧ n.2 = k.direction) q.orderBy
      q.sortNames :=
  forall₂_placeSortKeys h.shownItems_ne_nil h.isStar_of_mem_shownItems h.keysInTables

theorem outerItems_shownItems :
    outerItems q.shownItems =
      (q.shownItems.filterMap SelectItem.outputName).map (columnOf rowFilterName) :=
  outerItems_of_noStar h.shownItems_ne_nil h.isStar_of_mem_shownItems

theorem outerItems_ne_nil : outerItems q.shownItems ≠ [] := by
  obtain ⟨i, hi⟩ := List.exists_mem_of_ne_nil _ h.shownItems_ne_nil
  obtain ⟨name, hname⟩ :=
    Option.isSome_iff_exists.mp (h.isSome_outputName_of_mem_shownItems i hi)
  have hmem : name ∈ q.shownItems.filterMap SelectItem.outputName :=
    List.mem_filterMap.mpr ⟨i, hi, hname⟩
  rw [h.outerItems_shownItems]
  exact List.ne_nil_of_mem (List.mem_map_of_mem hmem)

end Numberable

end Select

end SqlTree
