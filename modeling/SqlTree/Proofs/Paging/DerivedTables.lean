import SqlTree.Proofs.Paging.Blocks
import SqlTree.Proofs.Paging.ColumnNames
import SqlTree.Proofs.Tree.ValidStatements

/-!
# Columns of derived tables

A query that is put into a source of another one becomes a derived table, whose columns need names.
The blocks of a page name the columns that have none. Counting the rows of a query puts it into a
source as it is.

* `Select.ShowsNamed`: every column of a query has a name or is a star.

Results:
* `Select.showsNamed_innerBlock`, `Select.showsNamed_middleBlock`: the blocks of a page show named
  columns.
* `Select.showsNamed_derivedTables`: so do the derived tables that are put around a valid query
  for its page, and the one for its count exactly if the query does.
-/

namespace SqlTree

/-- Placing sort keys adds only columns with names. -/
theorem isStarOrNamed_of_mem_placeSortKeys {items : List SelectItem} {ks : List SortKey}
    (h : ∀ i ∈ items, i.IsStarOrNamed) : ∀ i ∈ (placeSortKeys items ks).1, i.IsStarOrNamed := by
  refine placeSortKeys_induction (P := fun placed => ∀ i ∈ placed, i.IsStarOrNamed) h ?_
  intro k _ items hitems _ _
  refine List.forall_mem_append.mpr ⟨hitems, List.forall_mem_singleton.mpr (.inr ?_)⟩
  rw [k.outputName_hiddenItem]
  rfl

namespace Select

/-- Every column that a query shows has a name or is a star. -/
def ShowsNamed (q : Select) : Prop := ∀ i ∈ q.items, i.IsStarOrNamed

theorem showsNamed_innerBlock (q : Select) : (q.innerBlock q.innerItems).ShowsNamed :=
  isStarOrNamed_of_mem_placeSortKeys (isStarOrNamed_of_mem_shownItems q)

theorem showsNamed_middleBlock (inner : Select) (names : List (String × SortDirection)) :
    (middleBlock inner names).ShowsNamed := by
  refine List.forall_mem_cons.mpr ⟨.inl rfl, List.forall_mem_singleton.mpr (.inr rfl)⟩

/-- The blocks for the page of a valid query exist. If there is a page, the two that are derived
tables show named columns, whatever the query shows. The derived table in which the rows of the
query are counted shows the columns of the query, so that they are named only if those are. -/
theorem showsNamed_derivedTables {q : Select} (h : (Statement.select q).validate = .ok ()) :
    (∃ b, q.numberedBlocks? = .ok b ∧ (q.page = none → b = q) ∧
      (q.page ≠ none → ∃ middle inner, b.source = .ofQuery middle rowFilterName ∧
        middle.source = .ofQuery inner wrapperName ∧ middle.ShowsNamed ∧ inner.ShowsNamed)) ∧
    ∃ counted, q.rowCount.source = .ofQuery counted "t" ∧
      (counted.ShowsNamed ↔ q.ShowsNamed) := by
  have hvalid := Statement.validate_eq_ok_iff.mp h
  refine ⟨?_, { q with orderBy := [], page := none }, rfl, Iff.rfl⟩
  cases hp : q.page with
  | none => exact ⟨q, numberedBlocks?_of_page_eq_none hp, fun _ => rfl, fun hne => absurd rfl hne⟩
  | some p =>
    refine ⟨_, numberedBlocks?_of_page hp (orderBy_ne_nil hvalid hp), nofun, fun _ => ?_⟩
    exact ⟨_, _, rfl, rfl, showsNamed_middleBlock _ q.sortNames, showsNamed_innerBlock q⟩

/-- The second page of a query whose only column has no name. -/
def unnamedPage : Select :=
  { secondPage with items := [{ expr := .aggregate .count none false, aliasName := none }] }

/-- The blocks of the page name the column. -/
theorem showsNamed_unnamedPage :
    (Statement.select unnamedPage).validate = .ok () ∧ unnamedPage.page ≠ none ∧
    ∃ b middle inner, unnamedPage.numberedBlocks? = .ok b ∧
      b.source = .ofQuery middle rowFilterName ∧ middle.source = .ofQuery inner wrapperName ∧
      middle.ShowsNamed ∧ inner.ShowsNamed := by
  have hvalid : (Statement.select unnamedPage).validate = .ok () := rfl
  have hpage : unnamedPage.page ≠ none := nofun
  obtain ⟨⟨b, hb, -, hblocks⟩, -⟩ := showsNamed_derivedTables hvalid
  obtain ⟨middle, inner, hmiddle, hinner, hnamed⟩ := hblocks hpage
  exact ⟨hvalid, hpage, b, middle, inner, hb, hmiddle, hinner, hnamed⟩

/-- Counting its rows does not. -/
theorem not_showsNamed_rowCount :
    (Statement.select unnamedPage).validate = .ok () ∧
    ∃ counted, unnamedPage.rowCount.source = .ofQuery counted "t" ∧ ¬counted.ShowsNamed := by
  refine ⟨rfl, { unnamedPage with orderBy := [], page := none }, rfl, fun h => ?_⟩
  rcases h _ List.mem_cons_self with hstar | hname
  · exact absurd hstar (by decide)
  · exact absurd hname (by decide)

end Select

end SqlTree
