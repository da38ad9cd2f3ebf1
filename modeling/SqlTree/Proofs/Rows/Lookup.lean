import SqlTree.Proofs.Paging.ColumnNames
import SqlTree.Proofs.Rows.Table

/-!
# Columns found by name

In a row whose column names are apart, every named column is found. So sort keys on names of a
block have the values of the sort keys of the query inside, if each name is that of a column that
shows the field of its key.

Results:
* `column?_of_mem`: a named column of a row with distinct names is found by its name.
* `Reading.column?_shown`, `Reading.column?_numbered`: what is found in the rows of the inner and of
  the middle block.
* `keyCells?_sortKeysOf`: the values of sort keys on names.
-/

namespace SqlTree

variable {ρ V : Type}

/-! ## Partial functions that are defined everywhere -/

theorem mapM_map_eq_some {α β γ : Type} {f : α → β} {g : β → Option γ} {k : α → γ} {l : List α}
    (h : ∀ a ∈ l, g (f a) = some (k a)) : (l.map f).mapM g = some (l.map k) := by
  induction l with
  | nil => rfl
  | cons a l ih =>
    have hrest := ih fun b hb => h b (List.mem_cons_of_mem _ hb)
    rw [List.map_cons, List.mapM_cons, h a List.mem_cons_self, hrest]
    rfl

theorem keep?_map_eq_some {α β : Type} {f : α → β} {holds? : β → Option Bool} {p : α → Bool}
    {l : List α} (h : ∀ a ∈ l, holds? (f a) = some (p a)) :
    keep? holds? (l.map f) = some ((l.filter p).map f) := by
  induction l with
  | nil => rfl
  | cons a l ih =>
    have hrest := ih fun b hb => h b (List.mem_cons_of_mem _ hb)
    rw [List.map_cons, keep?, h a List.mem_cons_self, hrest, List.filter_cons]
    cases p a <;> rfl

/-! ## Rows -/

/-- The names of the columns of a row, in lower case. -/
def rowNames (row : NamedRow V) : List String := row.filterMap fun c => c.1.map String.toLower

theorem isCalled_iff {name : String} {c : Option String × Cell V} :
    isCalled name c = true ↔ c.1.map String.toLower = some name.toLower := by
  unfold isCalled
  cases c.1 with
  | none => simp
  | some n => simpa using sameName_iff

theorem mem_rowNames {row : NamedRow V} {name : String} {c : Option String × Cell V} (hc : c ∈ row)
    (h : isCalled name c = true) : name.toLower ∈ rowNames row :=
  List.mem_filterMap.mpr ⟨c, hc, isCalled_iff.mp h⟩

theorem notMem_rowNames_of_nodup_cons {row : NamedRow V} {name : String}
    {c : Option String × Cell V} (hrow : (rowNames (c :: row)).Nodup)
    (h : isCalled name c = true) : name.toLower ∉ rowNames row := by
  have hcons : rowNames (c :: row) = name.toLower :: rowNames row := by
    simp [rowNames, isCalled_iff.mp h]
  rw [hcons, List.nodup_cons] at hrow
  exact hrow.1

/-- A named column of a row with distinct names is found by its name. -/
theorem column?_of_mem {row : NamedRow V} (hrow : (rowNames row).Nodup) {name : String}
    {cell : Cell V} (h : (some name, cell) ∈ row) : column? row name = some cell := by
  have hself : isCalled name (some name, cell) = true := sameName_iff.mpr rfl
  have hfilter : row.filter (isCalled name) = [(some name, cell)] := by
    induction row with
    | nil => exact absurd h List.not_mem_nil
    | cons c row ih =>
      rcases List.mem_cons.mp h with rfl | h
      · have hother := notMem_rowNames_of_nodup_cons hrow hself
        have hnone : ∀ b ∈ row, ¬isCalled name b = true := fun b hb hmatch =>
          hother (mem_rowNames hb hmatch)
        rw [List.filter_cons_of_pos hself, List.filter_eq_nil_iff.mpr hnone]
      · have hc : ¬isCalled name c = true := fun hmatch =>
          notMem_rowNames_of_nodup_cons hrow hmatch (mem_rowNames h hself)
        have hrest : (rowNames row).Nodup :=
          hrow.sublist ((List.sublist_cons_self c row).filterMap _)
        rw [List.filter_cons_of_neg hc, ih hrest h]
  rw [column?, hfilter]

namespace Reading

variable (M : Reading ρ V)

/-- A row of the middle block: the columns of the inner block, and the number of the row. -/
def numbered (items : List SelectItem) (row : ρ) (n : Nat) : NamedRow V :=
  M.shown items row ++ [(some rowNumberName, .number n)]

theorem rowNames_shown (items : List SelectItem) (row : ρ) :
    rowNames (M.shown items row) = usedNames items := by
  unfold rowNames shown usedNames
  rw [List.filterMap_map]
  rfl

theorem rowNames_numbered (items : List SelectItem) (row : ρ) (n : Nat) :
    rowNames (M.numbered items row n) = usedNames items ++ [rowNumberName.toLower] := by
  rw [numbered, rowNames, List.filterMap_append, ← rowNames, rowNames_shown]
  rfl

variable {M} {items : List SelectItem} (h : NamesApart items)

include h

theorem nodup_rowNames_shown (row : ρ) : (rowNames (M.shown items row)).Nodup := by
  rw [rowNames_shown]
  exact (List.nodup_cons.mp h).2

theorem nodup_rowNames_numbered (row : ρ) (n : Nat) :
    (rowNames (M.numbered items row n)).Nodup := by
  rw [rowNames_numbered, List.nodup_append_comm]
  exact h

theorem column?_shown {i : SelectItem} {name : String} (hi : i ∈ items)
    (hname : i.outputName = some name) (row : ρ) :
    column? (M.shown items row) name = some (.data (M.value i.expr row)) := by
  refine column?_of_mem (nodup_rowNames_shown h row) ?_
  rw [← hname]
  exact List.mem_map.mpr ⟨i, hi, rfl⟩

theorem column?_numbered {i : SelectItem} {name : String} (hi : i ∈ items)
    (hname : i.outputName = some name) (row : ρ) (n : Nat) :
    column? (M.numbered items row n) name = some (.data (M.value i.expr row)) := by
  refine column?_of_mem (nodup_rowNames_numbered h row n) (List.mem_append_left _ ?_)
  rw [← hname]
  exact List.mem_map.mpr ⟨i, hi, rfl⟩

theorem column?_numbered_rowNumberName (row : ρ) (n : Nat) :
    column? (M.numbered items row n) rowNumberName = some (.number n) :=
  column?_of_mem (nodup_rowNames_numbered h row n)
    (List.mem_append_right _ (List.mem_singleton_self _))

end Reading

/-! ## Sort keys on names -/

theorem cell?_field (source name : String) (row : NamedRow V) :
    (Expr.field (some source) name).cell? source row = column? row name :=
  if_pos rfl

theorem map_direction_sortKeysOf (source : String) {ks : List SortKey}
    {names : List (String × SortDirection)} {P : SortKey → String × SortDirection → Prop}
    (h : List.Forall₂ (fun k n => P k n ∧ n.2 = k.direction) ks names) :
    (sortKeysOf source names).map SortKey.direction = ks.map SortKey.direction := by
  induction h with
  | nil => rfl
  | cons hk _ ih => exact congrArg₂ List.cons hk.2 ih

/-- Sort keys on names have the values of the sort keys whose fields the named columns show. -/
theorem keyCells?_sortKeysOf (M : Reading ρ V) (source : String) {items : List SelectItem}
    {ks : List SortKey} {names : List (String × SortDirection)} {row : ρ} {named : NamedRow V}
    (hfind : ∀ i ∈ items, ∀ name, i.outputName = some name →
      column? named name = some (.data (M.value i.expr row)))
    (h : List.Forall₂ (fun k n => ShowsUnder items k n.1 ∧ n.2 = k.direction) ks names) :
    keyCells? source (sortKeysOf source names) named = some (M.keys ks row) := by
  induction h with
  | nil => rfl
  | @cons k n ks names hk _ ih =>
    obtain ⟨⟨i, hi, hname, he⟩, -⟩ := hk
    have hcell : (Expr.field (some source) n.1).cell? source named =
        some (.data (M.value (.field k.table k.field) row)) := by
      rw [cell?_field, hfind i hi n.1 hname, he]
    unfold keyCells? at ih ⊢
    rw [sortKeysOf, List.map_cons, List.mapM_cons, hcell, ← sortKeysOf, ih]
    rfl

end SqlTree
