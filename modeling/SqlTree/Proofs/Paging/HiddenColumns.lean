import SqlTree.Proofs.Paging.Blocks
import SqlTree.Proofs.Paging.SortedNames

/-!
# Hidden columns

The inner block of a page shows the columns of its query, named by their position where they have no
name, and behind them a hidden column for each sort key that asks for a field which is not among
the columns by then. The outer block leaves the hidden columns out where it can name the others.

* `NamedByPosition`: the columns of a query and what becomes of them in the inner block;
* `SortKey.IsShownBy`: whether a sort key finds its field among columns;
* `SortKey.HidesBehind`: a hidden column that a sort key adds behind columns.

Results:
* `exists_hidden_placeSortKeys`: columns are hidden exactly if some sort key is not shown.
* `Select.distinctPage_hides_nothing_iff`: whether a query without duplicate rows gets hidden
  columns, which make further rows differ.
* `Select.outerItems_shows_own`: what the outer block shows: the columns of the query that are left
  without those named like the row numbers, or a star, which shows hidden columns as well.
-/

namespace SqlTree

/-! ## Columns of the query -/

/-- What naming by position makes of the column at a position: one without a name that is no star
gets a fresh name for its position, and every other one stays. -/
def SelectItem.GetsName (n : Nat) (i j : SelectItem) : Prop :=
  if i.outputName.isNone ∧ i.expr.isStar = false then
    ∃ others, j = { i with aliasName := some (freshName others (numberedName "col" n)) }
  else j = i

/-- The same columns in the same order, named by their positions where they have no name. -/
def NamedByPosition (items named : List SelectItem) : Prop :=
  List.Forall₂ (fun c j => SelectItem.GetsName c.2 c.1 j) (items.zipIdx 1) named

theorem SelectItem.GetsName.eq_of_outputName {n : Nat} {i j : SelectItem} {name : String}
    (h : i.GetsName n j) (hname : i.outputName = some name) : j = i := by
  rwa [GetsName, if_neg (by simp [hname])] at h

/-- Naming by position keeps the columns in their order, and gives some a name. -/
theorem namePositions_eq_append (before items : List SelectItem) :
    ∃ named, namePositions before items = before ++ named ∧
      List.Forall₂ (fun c j => SelectItem.GetsName c.2 c.1 j)
        (items.zipIdx (before.length + 1)) named := by
  -- Columns move from behind to before, so the position of the next one is their number plus one.
  induction items generalizing before with
  | nil => exact ⟨[], by rw [namePositions, List.append_nil], .nil⟩
  | cons i rest ih =>
    have hnext (j : SelectItem) : (before ++ [j]).length + 1 = before.length + 1 + 1 := by simp
    rw [namePositions, List.zipIdx_cons]
    split
    · rename_i hunnamed
      let name := freshName (before ++ i :: rest) (numberedName "col" (before.length + 1))
      let named : SelectItem := { i with aliasName := some name }
      obtain ⟨others, happend, hothers⟩ := ih (before ++ [named])
      rw [hnext] at hothers
      have hnamed : i.GetsName (before.length + 1) named := by
        rw [SelectItem.GetsName, if_pos hunnamed]
        exact ⟨_, rfl⟩
      exact ⟨named :: others, by rw [happend, List.append_assoc, List.singleton_append],
        .cons hnamed hothers⟩
    · rename_i hkept
      obtain ⟨others, happend, hothers⟩ := ih (before ++ [i])
      rw [hnext] at hothers
      have hnamed : i.GetsName (before.length + 1) i := by rw [SelectItem.GetsName, if_neg hkept]
      exact ⟨i :: others, by rw [happend, List.append_assoc, List.singleton_append],
        .cons hnamed hothers⟩

theorem exists_mem_of_forall₂ {α β : Type} {R : α → β → Prop} {xs : List α} {ys : List β} {y : β}
    (h : List.Forall₂ R xs ys) (hy : y ∈ ys) : ∃ x ∈ xs, R x y := by
  induction h with
  | nil => simp at hy
  | @cons x y' xs ys hx _ ih =>
    rcases List.mem_cons.mp hy with rfl | hy
    · exact ⟨x, List.mem_cons_self, hx⟩
    · obtain ⟨x', hx', hxy⟩ := ih hy
      exact ⟨x', List.mem_cons_of_mem x hx', hxy⟩

theorem NamedByPosition.length_eq {items named : List SelectItem}
    (h : NamedByPosition items named) : named.length = items.length := by
  rw [← List.Forall₂.length_eq h, List.length_zipIdx]

theorem NamedByPosition.exists_getsName {items named : List SelectItem} {j : SelectItem}
    (h : NamedByPosition items named) (hj : j ∈ named) : ∃ i ∈ items, ∃ n, i.GetsName n j := by
  obtain ⟨⟨i, n⟩, hmem, hij⟩ := exists_mem_of_forall₂ h hj
  exact ⟨i, List.fst_mem_of_mem_zipIdx hmem, n, hij⟩

/-- Whether some column has a kind of expression depends on the expressions alone. -/
theorem exists_expr_iff_of_map_eq {xs ys : List SelectItem}
    (h : xs.map SelectItem.expr = ys.map SelectItem.expr) (P : Expr → Prop) :
    (∃ i ∈ xs, P i.expr) ↔ ∃ i ∈ ys, P i.expr := by
  have hexprs (items : List SelectItem) :
      (∃ i ∈ items, P i.expr) ↔ ∃ e ∈ items.map SelectItem.expr, P e := by simp
  rw [hexprs, hexprs, h]

namespace Select

variable (q : Select)

theorem namedByPosition_shownItems :
    NamedByPosition (withoutRowNumber q.items) q.shownItems := by
  obtain ⟨named, happend, hnamed⟩ := namePositions_eq_append [] (withoutRowNumber q.items)
  rw [shownItems, happend, List.nil_append]
  exact hnamed

end Select

/-! ## Sort keys that are shown -/

namespace SortKey

/-- Whether a sort key needs no column of its own: the columns are all those of the source, or one
of them shows the field of the key, has the name of a key without a table, or is a star over the
table of the key. -/
def IsShownBy (k : SortKey) (items : List SelectItem) : Prop :=
  items = [] ∨ ∃ i ∈ items,
    k.sortsOn i = true ∨ (k.table = none ∧ i.outputName = some k.field) ∨ k.isCoveredBy i = true

/-- A column that is hidden behind columns, and perhaps further ones, for a sort key that the
columns do not show. It shows the field of the key under a name that none of the others has. -/
structure HidesBehind (k : SortKey) (items : List SelectItem) (i : SelectItem) : Prop where
  notShown : ¬k.IsShownBy items
  exists_eq : ∃ more, i = k.hiddenItem (freshName (items ++ more) k.field)

variable {k : SortKey} {items more : List SelectItem} {i : SelectItem}

theorem not_isShownBy_iff :
    ¬k.IsShownBy items ↔ k.outputName? items = none ∧ k.isCovered items = false := by
  rw [outputName?_eq_none_iff, isCovered_eq, IsShownBy]
  cases items with
  | nil => simp
  | cons i rest => grind

theorem ne_nil_of_not_isShownBy (h : ¬k.IsShownBy items) : items ≠ [] :=
  fun hnil => h (.inl hnil)

theorem placedIn_of_isShownBy (h : k.IsShownBy items) : k.placedIn items = items := by
  rw [placedIn, if_neg]
  exact fun hnone => not_isShownBy_iff.mpr hnone h

theorem placedIn_of_not_isShownBy (h : ¬k.IsShownBy items) :
    k.placedIn items = items ++ [k.hiddenItem (freshName items k.field)] := by
  rw [placedIn, if_pos (not_isShownBy_iff.mp h)]

/-- A key that is shown by columns is shown by more of them. None at all are all of the source, so
they do not count. -/
theorem IsShownBy.append (h : k.IsShownBy items) (hne : items ≠ []) :
    k.IsShownBy (items ++ more) := by
  obtain ⟨i, hi, hshows⟩ := h.resolve_left hne
  exact .inr ⟨i, List.mem_append_left _ hi, hshows⟩

theorem HidesBehind.of_append (h : k.HidesBehind (items ++ more) i) (hne : items ≠ []) :
    k.HidesBehind items i := by
  obtain ⟨hnot, others, rfl⟩ := h
  exact ⟨fun hshown => hnot (hshown.append hne), more ++ others, by rw [List.append_assoc]⟩

theorem HidesBehind.exists_outputName (h : k.HidesBehind items i) :
    ∃ name, i.outputName = some name ∧ name.toLower ∉ usedNames items := by
  obtain ⟨-, more, rfl⟩ := h
  have hfresh := toLower_freshName_notMem (items ++ more) k.field
  rw [usedNames_append, List.mem_append, not_or] at hfresh
  exact ⟨_, k.outputName_hiddenItem _, hfresh.1⟩

end SortKey

/-! ## Placing sort keys -/

/-- Placing sort keys hides columns behind the given ones, each for a key that they do not show, and
hides none exactly if they show every key. -/
theorem exists_hidden_placeSortKeys (items : List SelectItem) (ks : List SortKey) :
    ∃ hidden, (placeSortKeys items ks).1 = items ++ hidden ∧
      (∀ i ∈ hidden, ∃ k ∈ ks, k.HidesBehind items i) ∧
      (hidden = [] ↔ ∀ k ∈ ks, k.IsShownBy items) := by
  induction ks generalizing items with
  | nil => exact ⟨[], by rw [placeSortKeys, List.append_nil], by simp, by simp⟩
  | cons k ks ih =>
    rw [placeSortKeys_cons]
    by_cases hk : k.IsShownBy items
    · obtain ⟨hidden, happend, hhides, hnil⟩ := ih items
      rw [SortKey.placedIn_of_isShownBy hk]
      refine ⟨hidden, happend, fun i hi => ?_, ?_⟩
      · obtain ⟨j, hj, hij⟩ := hhides i hi
        exact ⟨j, List.mem_cons_of_mem k hj, hij⟩
      · rw [hnil, List.forall_mem_cons]
        exact (and_iff_right hk).symm
    · -- What further keys hide is hidden behind the first hidden column too; `of_append` drops it.
      let first := k.hiddenItem (freshName items k.field)
      obtain ⟨hidden, happend, hhides, -⟩ := ih (items ++ [first])
      rw [SortKey.placedIn_of_not_isShownBy hk]
      refine ⟨first :: hidden, by rw [happend, List.append_assoc, List.singleton_append], ?_, ?_⟩
      · refine List.forall_mem_cons.mpr ⟨⟨k, List.mem_cons_self, hk, [], ?_⟩, fun i hi => ?_⟩
        · rw [List.append_nil]
        · obtain ⟨j, hj, hij⟩ := hhides i hi
          exact ⟨j, List.mem_cons_of_mem k hj,
            hij.of_append (SortKey.ne_nil_of_not_isShownBy hk)⟩
      · exact iff_of_false (List.cons_ne_nil _ _) fun hall => hk (hall k List.mem_cons_self)

namespace Select

variable {q : Select} {p : Page}

/-- The blocks of a page, with their columns and names. -/
theorem numberedBlocks?_eq_outerBlock (hp : q.page = some p) (ho : q.orderBy ≠ []) :
    q.numberedBlocks? = .ok (outerBlock (middleBlock (q.innerBlock q.innerItems) q.sortNames)
      q.shownItems q.sortNames p.first (p.last q.top)) := by
  rw [numberedBlocks?_of_page hp ho, numberedBlocks_eq]

/-- A single sort key that is not shown hides one column. -/
theorem innerItems_of_not_isShownBy {k : SortKey} (ho : q.orderBy = [k])
    (hnot : ¬k.IsShownBy q.shownItems) :
    q.innerItems = q.shownItems ++ [k.hiddenItem (freshName q.shownItems k.field)] := by
  rw [innerItems, ho, placeSortKeys_cons, SortKey.placedIn_of_not_isShownBy hnot, placeSortKeys]

/-! ## Distinct rows -/

/-- The inner block for a page of distinct rows shows the columns of the query, and hides none
behind them exactly if these show every sort key. A hidden column has a part in which rows are
distinct. -/
theorem distinctPage_hides_nothing_iff (hp : q.page = some p) (ho : q.orderBy ≠ [])
    (hd : q.distinct = true) :
    ∃ b middle inner own hidden,
      q.numberedBlocks? = .ok b ∧ b.source = .ofQuery middle rowFilterName ∧
      middle.source = .ofQuery inner wrapperName ∧ inner.distinct = true ∧
      inner.items = own ++ hidden ∧
      NamedByPosition (withoutRowNumber q.items) own ∧
      (∀ i ∈ hidden, ∃ k ∈ q.orderBy, k.HidesBehind own i) ∧
      (hidden = [] ↔ ∀ k ∈ q.orderBy, k.IsShownBy own) := by
  obtain ⟨hidden, happend, hhides, hnil⟩ := exists_hidden_placeSortKeys q.shownItems q.orderBy
  exact ⟨_, _, _, q.shownItems, hidden, numberedBlocks?_eq_outerBlock hp ho, rfl, rfl, hd, happend,
    q.namedByPosition_shownItems, hhides, hnil⟩

/-- The second page of the different buyers in a table of orders, by name. -/
def buyersPage : Select :=
  { secondPage with
    items := [{ expr := .field (some "orders") "customer", aliasName := some "buyer" }]
    orderBy := [{ field := "buyer", table := none, direction := .asc }]
    distinct := true }

/-- Nothing is hidden behind the buyers. -/
theorem distinctPage_hides_nothing_buyers :
    buyersPage.page = some ⟨1, 2⟩ ∧ buyersPage.orderBy ≠ [] ∧ buyersPage.distinct = true ∧
    ∃ b middle inner, buyersPage.numberedBlocks? = .ok b ∧
      b.source = .ofQuery middle rowFilterName ∧ middle.source = .ofQuery inner wrapperName ∧
      inner.distinct = true ∧
      NamedByPosition (withoutRowNumber buyersPage.items) inner.items := by
  have ho : buyersPage.orderBy ≠ [] := List.cons_ne_nil _ _
  obtain ⟨b, middle, inner, own, hidden, hb, hmiddle, hinner, hd, hitems, hown, -, hnil⟩ :=
    distinctPage_hides_nothing_iff (q := buyersPage) rfl ho rfl
  have hkept : withoutRowNumber buyersPage.items = buyersPage.items :=
    NamesApart.withoutRowNumber_eq (by decide +kernel)
  have hshown : ∀ k ∈ buyersPage.orderBy, k.IsShownBy own := by
    rw [hkept] at hown
    obtain ⟨buyer, rest, hbuyer, -, rfl⟩ := List.forall₂_cons_left_iff.mp hown
    obtain rfl : buyer = _ := SelectItem.GetsName.eq_of_outputName hbuyer rfl
    exact List.forall_mem_singleton.mpr
      (.inr ⟨_, List.mem_cons_self, .inr (.inl ⟨rfl, rfl⟩)⟩)
  rw [hnil.mpr hshown, List.append_nil] at hitems
  exact ⟨rfl, ho, rfl, b, middle, inner, hb, hmiddle, hinner, hd, hitems ▸ hown⟩

/-- The second page of the different customers in a table of orders, by the dates of the orders. -/
def datedPage : Select :=
  { secondPage with
    items := [{ expr := .field (some "orders") "customer", aliasName := none }]
    distinct := true }

/-- The dates are hidden behind the customers, each of which is then there once for every date. -/
theorem distinctPage_hides_dates :
    (Statement.select datedPage).validate = .ok () ∧ datedPage.distinct = true ∧
    ∃ b middle inner, datedPage.numberedBlocks? = .ok b ∧
      b.source = .ofQuery middle rowFilterName ∧ middle.source = .ofQuery inner wrapperName ∧
      inner.distinct = true ∧
      inner.items = datedPage.items ++ [⟨.field (some "orders") "placed", none⟩] ∧
      ¬NamedByPosition (withoutRowNumber datedPage.items) inner.items := by
  have ho : datedPage.orderBy ≠ [] := List.cons_ne_nil _ _
  have hkept : withoutRowNumber datedPage.items = datedPage.items :=
    NamesApart.withoutRowNumber_eq (by decide +kernel)
  have hshown : datedPage.shownItems = datedPage.items := by
    rw [shownItems, hkept]
    rfl
  have hname : freshName datedPage.items "placed" = "placed" := by decide +kernel
  have hitems : datedPage.innerItems =
      datedPage.items ++ [⟨.field (some "orders") "placed", none⟩] := by
    have hnot : ¬SortKey.IsShownBy ⟨"placed", some "orders", .desc⟩ datedPage.shownItems :=
      SortKey.not_isShownBy_iff.mpr (by rw [hshown]; exact ⟨by decide, by decide⟩)
    rw [innerItems_of_not_isShownBy rfl hnot, hshown, hname]
    rfl
  refine ⟨rfl, rfl, _, _, _, numberedBlocks?_eq_outerBlock rfl ho, rfl, rfl, rfl, hitems, ?_⟩
  rw [hkept, innerBlock, hitems]
  intro hown
  exact absurd hown.length_eq (by decide)

/-! ## The outer block -/

theorem forall₂_columnOf {source : String} {items : List SelectItem}
    (hnamed : ∀ i ∈ items, i.outputName.isSome = true) :
    List.Forall₂ (fun i o => ∃ name, i.outputName = some name ∧ o = columnOf source name) items
      ((items.filterMap SelectItem.outputName).map (columnOf source)) := by
  induction items with
  | nil => exact .nil
  | cons i rest ih =>
    obtain ⟨hi, hrest⟩ := List.forall_mem_cons.mp hnamed
    obtain ⟨name, hname⟩ := Option.isSome_iff_exists.mp hi
    rw [List.filterMap_cons_some hname, List.map_cons]
    exact .cons ⟨name, hname, rfl⟩ (ih hrest)

/-- If columns of the query are left without those named like the row numbers, and no star is among
them, the outer block shows these columns in their order, by names that no hidden column has.
Otherwise it shows a star, for all columns of the blocks inside. Then no hidden column is among them
exactly if every sort key is shown by the columns of the query. -/
theorem outerItems_shows_own (hp : q.page = some p) (ho : q.orderBy ≠ []) :
    ∃ b middle inner own hidden,
      q.numberedBlocks? = .ok b ∧ b.source = .ofQuery middle rowFilterName ∧
      middle.source = .ofQuery inner wrapperName ∧ inner.items = own ++ hidden ∧
      NamedByPosition (withoutRowNumber q.items) own ∧
      (∀ i ∈ hidden, ∃ name, i.outputName = some name ∧ name.toLower ∉ usedNames own) ∧
      (withoutRowNumber q.items ≠ [] → (∀ i ∈ withoutRowNumber q.items, i.expr.isStar = false) →
        List.Forall₂
          (fun i o => ∃ name, i.outputName = some name ∧ o = columnOf rowFilterName name)
          own b.items) ∧
      (withoutRowNumber q.items = [] ∨ (∃ i ∈ withoutRowNumber q.items, i.expr.isStar = true) →
        b.items = [allColumnsOf rowFilterName]) ∧
      (hidden = [] ↔ ∀ k ∈ q.orderBy, k.IsShownBy own) := by
  obtain ⟨hidden, happend, hhides, hnil⟩ := exists_hidden_placeSortKeys q.shownItems q.orderBy
  have hstars := exists_expr_iff_of_map_eq q.map_expr_shownItems (·.isStar = true)
  refine ⟨_, _, _, q.shownItems, hidden, numberedBlocks?_eq_outerBlock hp ho, rfl, rfl, happend,
    q.namedByPosition_shownItems, fun i hi => ?_, fun hne hnone => ?_, fun hstar => ?_, hnil⟩
  · obtain ⟨k, -, hk⟩ := hhides i hi
    exact hk.exists_outputName
  · have hnone' : ∀ i ∈ q.shownItems, i.expr.isStar = false := by
      intro i hi
      rw [Bool.eq_false_iff]
      intro hstar
      obtain ⟨j, hj, hjstar⟩ := hstars.mp ⟨i, hi, hstar⟩
      rw [hnone j hj] at hjstar
      contradiction
    have hnamed : ∀ i ∈ q.shownItems, i.outputName.isSome = true := by
      intro i hi
      refine (isStarOrNamed_of_mem_shownItems q i hi).resolve_left ?_
      rw [hnone' i hi]
      exact Bool.false_ne_true
    show List.Forall₂ _ q.shownItems (outerItems q.shownItems)
    rw [outerItems_of_noStar (mt q.shownItems_eq_nil_iff.mp hne) hnone']
    exact forall₂_columnOf hnamed
  · exact outerItems_of_star (hstar.imp q.shownItems_eq_nil_iff.mpr hstars.mpr)

/-- No column is left of a query for nothing but the row numbers of its own. -/
example : withoutRowNumber [columnOf "orders" "row_number"] = [] := by
  have hrow : (columnOf "orders" "row_number").isNamed rowNumberName = true :=
    sameName_of_toList (by decide)
  simp [withoutRowNumber, hrow]

/-- The second page of the counts of orders by customer, whose only column has no name. -/
def countsPage : Select :=
  { secondPage with
    items := [{ expr := .aggregate .count none false, aliasName := none }]
    groupBy := [{ field := "customer", table := some "orders" }]
    orderBy := [{ field := "customer", table := some "orders", direction := .asc }] }

/-- The page shows the counts and not the customers. -/
theorem outerItems_shows_own_counts :
    countsPage.page = some ⟨1, 2⟩ ∧ countsPage.orderBy ≠ [] ∧
    ∃ b name, countsPage.numberedBlocks? = .ok b ∧ b.items = [columnOf rowFilterName name] := by
  have ho : countsPage.orderBy ≠ [] := List.cons_ne_nil _ _
  have hkept : withoutRowNumber countsPage.items = countsPage.items :=
    NamesApart.withoutRowNumber_eq (by decide +kernel)
  obtain ⟨b, middle, inner, own, hidden, hb, -, -, -, hown, -, hshows, -, -⟩ :=
    outerItems_shows_own (q := countsPage) rfl ho
  rw [hkept] at hown hshows
  obtain ⟨count, rest, -, hrest, rfl⟩ := List.forall₂_cons_left_iff.mp hown
  obtain rfl := List.forall₂_nil_left_iff.mp hrest
  obtain ⟨_, _, ⟨name, -, rfl⟩, hnil, hitems⟩ := List.forall₂_cons_left_iff.mp
    (hshows (List.cons_ne_nil _ _) (List.forall_mem_singleton.mpr rfl))
  obtain rfl := List.forall₂_nil_left_iff.mp hnil
  exact ⟨rfl, ho, b, name, hb, hitems⟩

/-- The second page of orders with the names of their customers, by these names. The page shows all
columns of one of the two tables. -/
def joinedPage : Select :=
  { secondPage with
    items := [allColumnsOf "orders", { expr := .field none "name", aliasName := none }]
    source := ⟨some ⟨.table "orders" none, none⟩,
      [⟨.inner, ⟨.table "customers" none, some "c"⟩, .fields "orders" [("customer", "number")]⟩]⟩
    orderBy := [{ field := "name", table := some "c", direction := .asc }] }

/-- The star of the outer block shows the names once more, from a hidden column. -/
theorem outerItems_shows_hidden_names :
    (Statement.select joinedPage).validate = .ok () ∧
    ∃ b middle inner, joinedPage.numberedBlocks? = .ok b ∧
      b.source = .ofQuery middle rowFilterName ∧ middle.source = .ofQuery inner wrapperName ∧
      b.items = [allColumnsOf rowFilterName] ∧
      inner.items = joinedPage.items ++ [⟨.field (some "c") "name", some "name2"⟩] ∧
      ¬NamedByPosition (withoutRowNumber joinedPage.items) inner.items := by
  have ho : joinedPage.orderBy ≠ [] := List.cons_ne_nil _ _
  have hkept : withoutRowNumber joinedPage.items = joinedPage.items :=
    NamesApart.withoutRowNumber_eq (by decide +kernel)
  have hshown : joinedPage.shownItems = joinedPage.items := by
    rw [shownItems, hkept]
    rfl
  have hname : freshName joinedPage.items "name" = "name2" := by decide +kernel
  have hitems : joinedPage.innerItems =
      joinedPage.items ++ [⟨.field (some "c") "name", some "name2"⟩] := by
    have hnot : ¬SortKey.IsShownBy ⟨"name", some "c", .asc⟩ joinedPage.shownItems :=
      SortKey.not_isShownBy_iff.mpr (by rw [hshown]; exact ⟨by decide, by decide⟩)
    rw [innerItems_of_not_isShownBy rfl hnot, hshown, hname]
    rfl
  have hstar : outerItems joinedPage.shownItems = [allColumnsOf rowFilterName] := by
    rw [hshown]
    exact outerItems_of_star (.inr ⟨_, List.mem_cons_self, rfl⟩)
  refine ⟨rfl, _, _, _, numberedBlocks?_eq_outerBlock rfl ho, rfl, rfl, hstar, hitems, ?_⟩
  rw [hkept, innerBlock, hitems]
  intro hown
  exact absurd hown.length_eq (by decide)

end Select

end SqlTree
