import SqlTree.Proofs.Paging.CapturedNames
import SqlTree.Proofs.Paging.DerivedTables

/-!
# Sort keys that resolve

The middle and the outer block of a page sort by names, and these names have to mean something in
the block inside. The columns grow while the names are chosen: first by the names for positions,
then by a hidden column for each sort key that is not shown. A name is looked up as it is written,
and a new one is chosen so that it differs from all others in more than the case of its letters.

* `SortKey.ResolvesTo`: whether a name stands for a sort key among columns.

Results:
* `SortKey.ResolvesTo.placeSortKeys`: a name that stands for a sort key still does when further
  keys have been placed.
* `forall₂_resolvesTo_placeSortKeys`: every sort key gets such a name, and keeps its direction.
* `Select.sortKeys_resolve`: in the blocks of a page of columns with different names, the columns
  of the inner block have different names, and both orders are those of the query, by names that
  stand for their keys among these columns.
-/

namespace SqlTree

/-! ## The columns of the inner block -/

theorem toLower_rowNumberName_notMem {items : List SelectItem} :
    rowNumberName.toLower ∉ usedNames (withoutRowNumber items) := by
  intro hmem
  obtain ⟨i, hi, hnamed⟩ := List.any_eq_true.mp (isTaken_iff.mpr hmem)
  have hother := (List.mem_filter.mp hi).2
  rw [hnamed] at hother
  exact Bool.false_ne_true hother

/-- Columns of different names, none of which is left that is named like the row numbers, get
different names and stay so when columns are hidden behind them. -/
theorem Select.nodup_usedNames_innerItems {q : Select}
    (h : (usedNames (withoutRowNumber q.items)).Nodup) : (usedNames q.innerItems).Nodup := by
  have hapart : NamesApart q.shownItems :=
    NamesApart.namePositions (List.nodup_cons.mpr ⟨toLower_rowNumberName_notMem, h⟩)
  exact nodup_usedNames_placeSortKeys (List.nodup_cons.mp hapart).2

/-! ## Names that stand for a sort key -/

namespace SortKey

/-- Whether a name stands for a sort key among columns: one of them has exactly this name, or it is
the field of the key, and the columns are all of the source or have a star over the table of the
key. -/
def ResolvesTo (k : SortKey) (items : List SelectItem) (name : String) : Prop :=
  (∃ c ∈ items, c.outputName = some name) ∨
    name = k.field ∧ (items = [] ∨ ∃ c ∈ items, c.expr.isStar = true ∧ k.isCoveredBy c = true)

variable {k : SortKey} {items : List SelectItem} {name : String}

theorem exists_outputName_of_outputName? (h : k.outputName? items = some name) :
    ∃ c ∈ items, c.outputName = some name := by
  unfold outputName? at h
  rw [Option.orElse_eq_orElse, Option.orElse_eq_or, Option.or_eq_some_iff] at h
  rcases h with hshown | ⟨-, hnamed⟩
  · obtain ⟨c, hc, hname⟩ := Option.bind_eq_some_iff.mp hshown
    exact ⟨c, List.mem_of_find?_eq_some hc, hname⟩
  · split at hnamed
    · exact List.mem_filterMap.mp (List.mem_of_find?_eq_some hnamed)
    · contradiction

/-- A sort key that is covered by columns is named by its own field. -/
theorem resolvesTo_field (h : k.isCovered items = true) : k.ResolvesTo items k.field := by
  rw [isCovered_eq, Bool.or_eq_true, List.isEmpty_iff, List.any_eq_true] at h
  refine .inr ⟨rfl, h.imp_right ?_⟩
  rintro ⟨c, hc, hcovers⟩
  exact ⟨c, hc, k.isStar_of_isCoveredBy hcovers, hcovers⟩

/-- The name that a sort key gets stands for it among the columns that are there afterwards. -/
theorem resolvesTo_placedIn (k : SortKey) (items : List SelectItem) :
    k.ResolvesTo (k.placedIn items) (k.nameIn items) := by
  unfold placedIn nameIn
  cases hname : k.outputName? items with
  | some name =>
    rw [if_neg (by simp)]
    exact .inl (exists_outputName_of_outputName? hname)
  | none =>
    cases hcovered : k.isCovered items with
    | true => exact resolvesTo_field hcovered
    | false =>
      rw [if_pos ⟨rfl, rfl⟩]
      exact .inl ⟨_, List.mem_append_right _ List.mem_cons_self, k.outputName_hiddenItem _⟩

theorem ResolvesTo.append (h : k.ResolvesTo items name) (hne : items ≠ [])
    (more : List SelectItem) : k.ResolvesTo (items ++ more) name := by
  rcases h with ⟨c, hc, hname⟩ | ⟨hfield, hnil | ⟨c, hc, hcovers⟩⟩
  · exact .inl ⟨c, List.mem_append_left more hc, hname⟩
  · exact absurd hnil hne
  · exact .inr ⟨hfield, .inr ⟨c, List.mem_append_left more hc, hcovers⟩⟩

/-- No sort key hides a column behind none at all: these are all columns of the source. -/
theorem placeSortKeys_nil (ks : List SortKey) : (placeSortKeys [] ks).1 = [] := by
  induction ks with
  | nil => rfl
  | cons k ks ih => rw [placeSortKeys_cons, placedIn_of_isShownBy (.inl rfl), ih]

/-- A name that stands for a sort key still does when further keys have been placed. -/
theorem ResolvesTo.placeSortKeys (h : k.ResolvesTo items name) (ks : List SortKey) :
    k.ResolvesTo (placeSortKeys items ks).1 name := by
  by_cases hnil : items = []
  · subst hnil
    rwa [placeSortKeys_nil]
  · obtain ⟨added, happend, -⟩ := placeSortKeys_fst items ks
    rw [happend]
    exact h.append hnil added

end SortKey

/-- Every sort key gets a name that stands for it among the columns in the end, and keeps its
direction. -/
theorem forall₂_resolvesTo_placeSortKeys (items : List SelectItem) (ks : List SortKey) :
    List.Forall₂ (fun k n => k.ResolvesTo (placeSortKeys items ks).1 n.1 ∧ n.2 = k.direction) ks
      (placeSortKeys items ks).2 := by
  induction ks generalizing items with
  | nil => exact .nil
  | cons k ks ih =>
    rw [placeSortKeys_cons]
    exact .cons ⟨(k.resolvesTo_placedIn items).placeSortKeys ks, rfl⟩ (ih (k.placedIn items))

/-! ## Queries -/

namespace Select

variable {q : Select} {p : Page}

/-- The blocks of a page with an order, of columns whose names differ in more than case once those
named like the row numbers are left out. In the inner block every column is a star or has a name,
and the names still differ. The numbers of the rows and the outer block have the order of the
query: each key in its place and with its direction, by one name that stands for it among the
columns of the inner block. -/
theorem sortKeys_resolve (hp : q.page = some p) (ho : q.orderBy ≠ [])
    (hnames : (usedNames (withoutRowNumber q.items)).Nodup) :
    ∃ b middle inner order names,
      q.numberedBlocks? = .ok b ∧ b.source = .ofQuery middle rowFilterName ∧
      middle.source = .ofQuery inner wrapperName ∧
      middle.items = [allColumnsOf wrapperName, ⟨.rowNumber order, some rowNumberName⟩] ∧
      (∀ c ∈ inner.items, c.expr.isStar = true ∨ c.outputName.isSome = true) ∧
      (usedNames inner.items).Nodup ∧
      order = sortKeysOf wrapperName names ∧ b.orderBy = sortKeysOf rowFilterName names ∧
      List.Forall₂ (fun k n => k.ResolvesTo inner.items n.1 ∧ n.2 = k.direction) q.orderBy
        names :=
  ⟨_, _, _, _, q.sortNames, numberedBlocks?_eq_outerBlock hp ho, rfl, rfl, rfl,
    isStarOrNamed_of_mem_placeSortKeys (isStarOrNamed_of_mem_shownItems q),
    nodup_usedNames_innerItems hnames, rfl, rfl,
    forall₂_resolvesTo_placeSortKeys q.shownItems q.orderBy⟩

/-- The second page of the counts of orders by customer and seller, in the order of the names of
both. The counts have no name, and the names of customers and sellers have one name. -/
def namesakesPage : Select :=
  { secondPage with
    items := [{ expr := .aggregate .count none false, aliasName := none }]
    source := ⟨some ⟨.table "customers" none, some "c"⟩,
      [⟨.inner, ⟨.table "sellers" none, some "s"⟩, .fields "c" [("seller", "number")]⟩]⟩
    groupBy := [{ field := "name", table := some "c" }, { field := "name", table := some "s" }]
    orderBy := [{ field := "name", table := some "c", direction := .asc },
      { field := "name", table := some "s", direction := .desc }] }

/-- The page is sorted by two names, of customers first, that stand for the two fields. -/
theorem sortKeys_resolve_namesakes :
    (Statement.select namesakesPage).validate = .ok () ∧ namesakesPage.orderBy ≠ [] ∧
    (usedNames (withoutRowNumber namesakesPage.items)).Nodup ∧
    ∃ b middle inner first second, namesakesPage.numberedBlocks? = .ok b ∧
      b.source = .ofQuery middle rowFilterName ∧ middle.source = .ofQuery inner wrapperName ∧
      b.orderBy = [⟨first, some rowFilterName, .asc⟩, ⟨second, some rowFilterName, .desc⟩] ∧
      SortKey.ResolvesTo ⟨"name", some "c", .asc⟩ inner.items first ∧
      SortKey.ResolvesTo ⟨"name", some "s", .desc⟩ inner.items second := by
  have ho : namesakesPage.orderBy ≠ [] := List.cons_ne_nil _ _
  have hkept : withoutRowNumber namesakesPage.items = namesakesPage.items :=
    NamesApart.withoutRowNumber_eq (by decide +kernel)
  have hnames : (usedNames (withoutRowNumber namesakesPage.items)).Nodup := by
    rw [hkept]
    exact List.nodup_nil
  obtain ⟨b, middle, inner, order, names, hb, hmiddle, hinner, -, -, -, -, houter, hkeys⟩ :=
    sortKeys_resolve (q := namesakesPage) rfl ho hnames
  obtain ⟨⟨first, _⟩, rest, ⟨hfirst, rfl⟩, hrest, rfl⟩ := List.forall₂_cons_left_iff.mp hkeys
  obtain ⟨⟨second, _⟩, others, ⟨hsecond, rfl⟩, hothers, rfl⟩ :=
    List.forall₂_cons_left_iff.mp hrest
  obtain rfl := List.forall₂_nil_left_iff.mp hothers
  exact ⟨rfl, ho, hnames, b, middle, inner, first, second, hb, hmiddle, hinner, houter, hfirst,
    hsecond⟩

end Select

end SqlTree
