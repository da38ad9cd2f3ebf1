import SqlTree.Proofs.Paging.Columns

/-!
# Columns with other expressions

The blocks of a page are made from the names of columns and from the fields and stars among them.
So they stay the same when all other expressions change, apart from these expressions themselves.

Results:
* `KeepsColumns.placeSortKeys_map`: sort keys find the same columns.
* `KeepsColumns.numberedBlocks_eq`: the blocks of a query whose columns have other expressions
  differ in the inner block only.
-/

namespace SqlTree

/-- Whether an expression is a field or a star. -/
def Expr.isColumn : Expr → Bool
  | .field _ _ | .star _ => true
  | _ => false

/-- A map of expressions keeps fields and stars, and makes no further ones. -/
structure KeepsColumns (g : Expr → Expr) : Prop where
  fixes : ∀ e, e.isColumn = true → g e = e
  reflects : ∀ e, (g e).isColumn = e.isColumn

/-- An output column with its expression mapped. -/
def SelectItem.mapExpr (g : Expr → Expr) (i : SelectItem) : SelectItem :=
  { i with expr := g i.expr }

theorem SelectItem.mapExpr_eq {g : Expr → Expr} {i : SelectItem} (h : g i.expr = i.expr) :
    i.mapExpr g = i := by
  obtain ⟨e, aliasName⟩ := i
  exact congrArg (SelectItem.mk · aliasName) h

/-! ## Expressions that are no columns -/

theorem Expr.outputName_eq_none {e : Expr} (h : e.isColumn = false) : e.outputName = none := by
  cases e with
  | field table name => simp [isColumn] at h
  | _ => rfl

theorem Expr.isStar_eq_false {e : Expr} (h : e.isColumn = false) : e.isStar = false := by
  cases e with
  | star table => simp [isColumn] at h
  | _ => rfl

theorem SortKey.sortsOn_eq_false {i : SelectItem} (k : SortKey) (h : i.expr.isColumn = false) :
    k.sortsOn i = false := by
  obtain ⟨e, aliasName⟩ := i
  cases e with
  | field table name => simp [Expr.isColumn] at h
  | _ => rfl

theorem SortKey.isCoveredBy_eq_false {i : SelectItem} (k : SortKey) (h : i.expr.isColumn = false) :
    k.isCoveredBy i = false := by
  have hstar := Expr.isStar_eq_false h
  cases hc : k.isCoveredBy i with
  | false => rfl
  | true => simp [k.isStar_of_isCoveredBy hc] at hstar

namespace KeepsColumns

variable {g : Expr → Expr} (hg : KeepsColumns g)

include hg

/-- A mapped expression is the same one, or neither is a field or a star. -/
theorem eq_or (e : Expr) : g e = e ∨ e.isColumn = false ∧ (g e).isColumn = false := by
  cases h : e.isColumn with
  | true => exact .inl (hg.fixes e h)
  | false => exact .inr ⟨rfl, by rw [hg.reflects, h]⟩

/-! ## Names -/

theorem outputName_expr (e : Expr) : (g e).outputName = e.outputName := by
  rcases hg.eq_or e with h | ⟨h, h'⟩
  · rw [h]
  · rw [Expr.outputName_eq_none h, Expr.outputName_eq_none h']

theorem isStar_expr (e : Expr) : (g e).isStar = e.isStar := by
  rcases hg.eq_or e with h | ⟨h, h'⟩
  · rw [h]
  · rw [Expr.isStar_eq_false h, Expr.isStar_eq_false h']

theorem outputName_mapExpr (i : SelectItem) : (i.mapExpr g).outputName = i.outputName := by
  rw [SelectItem.outputName, SelectItem.outputName, SelectItem.mapExpr, hg.outputName_expr]

theorem isNamed_mapExpr (i : SelectItem) (name : String) :
    (i.mapExpr g).isNamed name = i.isNamed name := by
  rw [SelectItem.isNamed, SelectItem.isNamed, hg.outputName_mapExpr]

theorem isTaken_map (items : List SelectItem) (name : String) :
    isTaken (items.map (·.mapExpr g)) name = isTaken items name := by
  simp only [isTaken, List.any_map, Function.comp_def, hg.isNamed_mapExpr]

theorem freshName_map (items : List SelectItem) (stem : String) :
    freshName (items.map (·.mapExpr g)) stem = freshName items stem := by
  simp only [freshName, candidateNames, hg.isTaken_map, List.length_map]

theorem withoutRowNumber_map (items : List SelectItem) :
    withoutRowNumber (items.map (·.mapExpr g)) = (withoutRowNumber items).map (·.mapExpr g) := by
  simp only [withoutRowNumber, List.filter_map, Function.comp_def, hg.isNamed_mapExpr]

theorem namePositions_map (before items : List SelectItem) :
    namePositions (before.map (·.mapExpr g)) (items.map (·.mapExpr g)) =
      (namePositions before items).map (·.mapExpr g) := by
  induction items generalizing before with
  | nil => rfl
  | cons i rest ih =>
    have hstar : (i.mapExpr g).expr.isStar = i.expr.isStar := hg.isStar_expr i.expr
    have hfresh := hg.freshName_map (before ++ i :: rest)
    rw [List.map_append, List.map_cons] at hfresh
    rw [List.map_cons, namePositions, namePositions, hg.outputName_mapExpr, hstar]
    split
    · simp only [hfresh, List.length_map]
      rw [← ih, List.map_append]
      rfl
    · rw [← ih, List.map_append]
      rfl

theorem outerItems_map (items : List SelectItem) :
    Select.outerItems (items.map (·.mapExpr g)) = Select.outerItems items := by
  have hstar : ∀ i : SelectItem, (i.mapExpr g).expr.isStar = i.expr.isStar :=
    fun i => hg.isStar_expr i.expr
  have hnames : (items.map (·.mapExpr g)).filterMap SelectItem.outputName =
      items.filterMap SelectItem.outputName := by
    simp only [List.filterMap_map, Function.comp_def, hg.outputName_mapExpr]
  rw [Select.outerItems, Select.outerItems, hnames, List.isEmpty_map, List.any_map]
  simp only [Function.comp_def, hstar]

theorem map_outerItems (shown : List SelectItem) :
    (Select.outerItems shown).map (·.mapExpr g) = Select.outerItems shown := by
  have hid : ∀ i ∈ Select.outerItems shown, i.mapExpr g = i := by
    intro i hi
    rcases Select.expr_of_mem_outerItems hi with ⟨table, he⟩ | ⟨table, name, he⟩
    all_goals exact SelectItem.mapExpr_eq (by rw [he, hg.fixes _ rfl])
  rw [List.map_congr_left hid, List.map_id']

/-! ## Sort keys -/

theorem sortsOn_mapExpr (k : SortKey) (i : SelectItem) : k.sortsOn (i.mapExpr g) = k.sortsOn i := by
  rcases hg.eq_or i.expr with h | ⟨h, h'⟩
  · rw [SelectItem.mapExpr_eq h]
  · rw [k.sortsOn_eq_false h, k.sortsOn_eq_false h']

theorem outputName?_map (k : SortKey) (items : List SelectItem) :
    k.outputName? (items.map (·.mapExpr g)) = k.outputName? items := by
  have hfind : ((items.map (·.mapExpr g)).find? k.sortsOn).bind SelectItem.outputName =
      (items.find? k.sortsOn).bind SelectItem.outputName := by
    rw [List.find?_map]
    simp only [Function.comp_def, hg.sortsOn_mapExpr]
    cases items.find? k.sortsOn with
    | none => rfl
    | some i => exact hg.outputName_mapExpr i
  have hnames : (items.map (·.mapExpr g)).filterMap SelectItem.outputName =
      items.filterMap SelectItem.outputName := by
    simp only [List.filterMap_map, Function.comp_def, hg.outputName_mapExpr]
  rw [SortKey.outputName?, SortKey.outputName?, hfind, hnames]

theorem isCoveredBy_mapExpr (k : SortKey) (i : SelectItem) :
    k.isCoveredBy (i.mapExpr g) = k.isCoveredBy i := by
  rcases hg.eq_or i.expr with h | ⟨h, h'⟩
  · rw [SelectItem.mapExpr_eq h]
  · rw [k.isCoveredBy_eq_false h, k.isCoveredBy_eq_false h']

theorem isCovered_map (k : SortKey) (items : List SelectItem) :
    k.isCovered (items.map (·.mapExpr g)) = k.isCovered items := by
  simp only [SortKey.isCovered_eq, List.isEmpty_map, List.any_map, Function.comp_def,
    hg.isCoveredBy_mapExpr]

theorem hiddenItem_mapExpr (k : SortKey) (name : String) :
    (k.hiddenItem name).mapExpr g = k.hiddenItem name := by
  rw [SelectItem.mapExpr, SortKey.hiddenItem, hg.fixes _ rfl]

/-- Sort keys find the same columns, and add the same ones. -/
theorem placeSortKeys_map (items : List SelectItem) (ks : List SortKey) :
    placeSortKeys (items.map (·.mapExpr g)) ks =
      ((placeSortKeys items ks).1.map (·.mapExpr g), (placeSortKeys items ks).2) := by
  induction ks generalizing items with
  | nil => rfl
  | cons k ks ih =>
    rw [placeSortKeys, placeSortKeys, hg.outputName?_map, hg.isCovered_map, hg.freshName_map]
    split
    · rw [ih]
    · split
      · rw [ih]
      · have hmap := ih (items ++ [k.hiddenItem (freshName items k.field)])
        rw [List.map_append, List.map_singleton, hg.hiddenItem_mapExpr] at hmap
        simp only [hmap]

/-! ## Pieces of the blocks -/

variable {q r : Select} (hitems : r.items = q.items.map (·.mapExpr g))

include hitems

theorem shownItems_eq : r.shownItems = q.shownItems.map (·.mapExpr g) := by
  rw [Select.shownItems, Select.shownItems, hitems, hg.withoutRowNumber_map,
    ← hg.namePositions_map, List.map_nil]

theorem innerItems_eq (ho : r.orderBy = q.orderBy) :
    r.innerItems = q.innerItems.map (·.mapExpr g) := by
  rw [Select.innerItems, Select.innerItems, ho, hg.shownItems_eq hitems, hg.placeSortKeys_map]

theorem sortNames_eq (ho : r.orderBy = q.orderBy) : r.sortNames = q.sortNames := by
  rw [Select.sortNames, Select.sortNames, ho, hg.shownItems_eq hitems, hg.placeSortKeys_map]

/-- The blocks of a query whose columns have other expressions differ in the inner block only. -/
theorem numberedBlocks_eq (ho : r.orderBy = q.orderBy) (ht : r.top = q.top) (p : Page) :
    r.numberedBlocks p =
      Select.outerBlock
        (Select.middleBlock (r.innerBlock (q.innerItems.map (·.mapExpr g))) q.sortNames)
        q.shownItems q.sortNames p.first (p.last q.top) := by
  rw [Select.numberedBlocks_eq, hg.innerItems_eq hitems ho, hg.sortNames_eq hitems ho, ht,
    hg.shownItems_eq hitems, Select.outerBlock, hg.outerItems_map]
  rfl

end KeepsColumns

end SqlTree
