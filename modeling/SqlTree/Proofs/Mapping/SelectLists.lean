import Mathlib.Data.List.Forall2
import SqlTree.Mapping.Registry
import SqlTree.Proofs.Rendering.Clauses
import SqlTree.Proofs.Rendering.Pieces
import SqlTree.Proofs.Tree.Obstacles
import SqlTree.Proofs.Tree.ValidStatements

/-!
# Select lists of mappings

The query for the records of a type names the columns of the properties that are not ignored. If all
of them are ignored there is nothing to name, and a query without output columns is written with a
star, which reads every column of the table.

* `ColumnMapping.Shows`: what is written for a property;
* `TableMapping.Lists`: a list of what is written for each property that is not ignored.

Results:
* `Registry.render_selectAs`: the query renders in every dialect.
* `Registry.selectAll_lists_iff`: it lists the properties that are not ignored if there is one, and
  is written with a star if there is none.
* `Registry.selectAll_reads_ignored`: a query that reads an ignored property.
-/

namespace SqlTree

open Token

/-! ## Lists of columns -/

/-- The column of a property in a table, by the alias of the table, and after `AS` the name of the
property if the column has another name. -/
def ColumnMapping.Shows (aliasName : String) (c : ColumnMapping) (item : List Token) : Prop :=
  ∃ rest, item = [ident aliasName, symbol .dot, ident c.column] ++ rest ∧
    (c.column = c.property ∧ rest = [] ∨
      c.column ≠ c.property ∧ rest = [space, keyword .AS, space, ident c.property])

/-- A list of what is written for each property that is not ignored, in their order. -/
def TableMapping.Lists (m : TableMapping) (aliasName : String) (list : List Token) : Prop :=
  ∃ items, List.Forall₂ (ColumnMapping.Shows aliasName)
    (m.columns.filter fun c => c.ignored = false) items ∧ list = commaList items

/-! ## The query -/

namespace Registry

variable (d : Dialect) (m : TableMapping) (aliasName : String)

theorem shows_selectItem (c : ColumnMapping) :
    c.Shows aliasName ((selectItem aliasName c).tokens d) := by
  unfold selectItem
  split
  · rename_i h
    exact ⟨[], rfl, .inl ⟨h, rfl⟩⟩
  · rename_i h
    exact ⟨_, rfl, .inr ⟨h, rfl⟩⟩

theorem exists_selectItem_eq (c : ColumnMapping) :
    ∃ name, selectItem aliasName c = ⟨.field (some aliasName) c.column, name⟩ := by
  unfold selectItem
  split <;> exact ⟨_, rfl⟩

/-- What holds of columns of the table, whatever they are called, holds of the output columns. -/
theorem forall_mem_items {P : SelectItem → Prop}
    (h : ∀ column name, P ⟨.field (some aliasName) column, name⟩) :
    ∀ i ∈ (selectAs m aliasName).items, P i := by
  refine List.forall_mem_map.mpr fun c _ => ?_
  obtain ⟨name, hitem⟩ := exists_selectItem_eq aliasName c
  exact hitem ▸ h c.column name

/-- There are no pages in the query to expand. -/
theorem forDialect_selectAs : (selectAs m aliasName).forDialect d = selectAs m aliasName := by
  have hsame : ∀ i ∈ (selectAs m aliasName).items, i.expandPages = i :=
    forall_mem_items m aliasName fun _ _ => rfl
  have hitems : (selectAs m aliasName).items.map SelectItem.expandPages =
      (selectAs m aliasName).items := by
    rw [List.map_congr_left hsame, List.map_id']
  rw [Select.forDialect_eq_expandParts d fun _ => rfl, Select.expandParts, hitems]
  split <;> rfl

/-- The select list of the query: the columns of the properties that are not ignored, or a star. -/
def selectList : List Token :=
  if m.mapped.isEmpty then [symbol .star]
  else commaList (m.mapped.map fun c => (selectItem aliasName c).tokens d)

/-- The query for the records of a type is valid if its table has a name. -/
theorem validate_selectAs (h : m.tableName ≠ "") :
    (Statement.select (selectAs m aliasName)).validate = .ok () := by
  have hitems : (selectAs m aliasName).items.flatMap (fun i => i.expr.violations) = [] :=
    List.flatMap_eq_nil_iff.mpr (forall_mem_items m aliasName fun _ _ => rfl)
  have hsource : (selectAs m aliasName).source.violations = [] := by
    simp [selectAs, TableRef.renamed, TableRef.table, FromClause.violations, TableRef.violations,
      sourceViolations, Source.violations, Join.violationsOfAll, h]
  refine Statement.validate_eq_ok_iff.mpr ?_
  simp only [Statement.violations, selectAs, Select.violations, Select.empty,
    SelectItem.violationsOfAll_eq_flatMap, List.append_eq_nil_iff] at hitems hsource ⊢
  exact ⟨⟨⟨⟨⟨hsource, rfl⟩, rfl⟩, hitems⟩, rfl⟩, rfl⟩

/-- The query for the records of a type renders in every dialect. -/
theorem render_selectAs :
    (Statement.select (selectAs m aliasName)).render d =
      .ok (words [[keyword .SELECT], selectList d m aliasName, [keyword .FROM],
        renamed [qualified none m.tableName] d.hasSourceAs (some aliasName)]) := by
  have hitems : (selectAs m aliasName).items.flatMap (fun i => i.expr.obstacles d) = [] :=
    List.flatMap_eq_nil_iff.mpr (forall_mem_items m aliasName fun _ _ => rfl)
  refine firstObstacle_map_eq_ok_iff.mpr ⟨?_, ?_⟩
  · rw [Statement.obstacles, forDialect_selectAs]
    simp only [selectAs, Select.obstacles, Select.empty, SelectItem.obstaclesOfAll_eq_flatMap,
      List.append_eq_nil_iff] at hitems ⊢
    exact ⟨⟨⟨⟨⟨rfl, hitems⟩, rfl⟩, rfl⟩, rfl⟩, rfl⟩
  · have hlist : (if (selectAs m aliasName).items.isEmpty then [symbol .star]
        else commaList (SelectItem.tokensOfAll d (selectAs m aliasName).items)) =
        selectList d m aliasName := by
      rw [selectList, SelectItem.tokensOfAll_eq_map]
      show (if (m.mapped.map _).isEmpty then _ else commaList ((m.mapped.map _).map _)) = _
      rw [List.isEmpty_map, List.map_map]
      rfl
    rw [Statement.tokens, forDialect_selectAs, ← hlist]
    cases d <;> rfl

/-! ## What the list has -/

theorem star_notMem_of_shows {c : ColumnMapping} {item : List Token} (h : c.Shows aliasName item) :
    symbol .star ∉ item := by
  obtain ⟨rest, rfl, ⟨-, rfl⟩ | ⟨-, rfl⟩⟩ := h
  · simp
  · simp

/-- No star is in a list of what is written for properties. -/
theorem star_notMem_of_lists {list : List Token} (h : m.Lists aliasName list) :
    symbol .star ∉ list := by
  obtain ⟨items, hitems, rfl⟩ := h
  generalize m.columns.filter _ = columns at hitems
  have hfree : ∀ item ∈ items, symbol .star ∉ item := by
    induction hitems with
    | nil => exact fun _ h => absurd h List.not_mem_nil
    | cons hshows _ ih =>
      exact List.forall_mem_cons.mpr ⟨star_notMem_of_shows aliasName hshows, ih⟩
  exact holds_intercalate (Q := fun ts => symbol .star ∉ ts)
    (fun hts hus => by simp [hts, hus]) hfree (.inl List.not_mem_nil)

theorem mapped_eq_nil_iff : m.mapped = [] ↔ ∀ c ∈ m.columns, c.ignored = true := by
  simp [TableMapping.mapped]

/-- If a property is not ignored, the query lists the properties that are not. -/
theorem lists_selectList (h : m.mapped ≠ []) : m.Lists aliasName (selectList d m aliasName) := by
  have hmapped : (m.columns.filter fun c => c.ignored = false) = m.mapped :=
    List.filter_congr fun c _ => by simp
  refine ⟨m.mapped.map fun c => (selectItem aliasName c).tokens d, ?_, ?_⟩
  · rw [hmapped, List.forall₂_map_right_iff, List.forall₂_same]
    exact fun c _ => shows_selectItem d aliasName c
  · rw [selectList, if_neg (by simpa using h)]

/-- If all properties are ignored, the query has a star. -/
theorem selectList_of_mapped_eq_nil (h : m.mapped = []) :
    selectList d m aliasName = [symbol .star] := by
  rw [selectList, h]
  rfl

variable {r : Registry} {recordType : String} {m : TableMapping}

theorem selectAll_eq (hm : r.get? recordType = some m) (s : AliasSession) :
    ∃ aliasName s', r.selectAll recordType s = .ok (selectAs m aliasName, s') ∧
      (m.aliasName = some aliasName ∧ s' = s ∨
        m.aliasName = none ∧ s.next m.tableName = (aliasName, s')) := by
  cases halias : m.aliasName with
  | some aliasName =>
    refine ⟨aliasName, s, ?_, .inl ⟨rfl, rfl⟩⟩
    simp [selectAll, require, hm, halias, bind, Except.bind, pure, Except.pure]
  | none =>
    refine ⟨(s.next m.tableName).1, (s.next m.tableName).2, ?_, .inr ⟨rfl, rfl⟩⟩
    simp [selectAll, require, hm, halias, bind, Except.bind, pure, Except.pure]

/-- The query for the records of a type is valid and renders in every dialect. Its table has the
alias of the mapping or the next one of the session. It lists the properties that are not ignored,
in their order, each by its column under this alias and with its own name, exactly if there is one;
if all properties are ignored, it is written with a star and reads them all. -/
theorem selectAll_lists_iff (hm : r.get? recordType = some m) (htable : m.tableName ≠ "")
    (s : AliasSession) :
    ∃ q s' aliasName, r.selectAll recordType s = .ok (q, s') ∧
      (m.aliasName = some aliasName ∧ s' = s ∨
        m.aliasName = none ∧ s.next m.tableName = (aliasName, s')) ∧
      (Statement.select q).validate = .ok () ∧
      ∀ d : Dialect, ∃ list,
        (Statement.select q).render d =
          .ok (words [[keyword .SELECT], list, [keyword .FROM],
            renamed [qualified none m.tableName] d.hasSourceAs (some aliasName)]) ∧
        (m.Lists aliasName list ↔ ∃ c ∈ m.columns, c.ignored = false) ∧
        (symbol .star ∈ list ↔ ∀ c ∈ m.columns, c.ignored = true) := by
  obtain ⟨aliasName, s', hq, halias⟩ := selectAll_eq hm s
  refine ⟨_, s', aliasName, hq, halias, validate_selectAs m aliasName htable, fun d =>
    ⟨selectList d m aliasName, render_selectAs d m aliasName, ?_⟩⟩
  have hmapped : m.mapped ≠ [] ↔ ∃ c ∈ m.columns, c.ignored = false := by
    rw [ne_eq, mapped_eq_nil_iff]
    simp
  rw [← hmapped, ← mapped_eq_nil_iff]
  by_cases hnil : m.mapped = []
  · have hstar := selectList_of_mapped_eq_nil d m aliasName hnil
    have hmem : symbol .star ∈ selectList d m aliasName := by simp [hstar]
    exact ⟨iff_of_false (fun hlists => star_notMem_of_lists m aliasName hlists hmem)
      (not_not_intro hnil), iff_of_true hmem hnil⟩
  · have hlists := lists_selectList d m aliasName hnil
    exact ⟨iff_of_true hlists hnil, iff_of_false (star_notMem_of_lists m aliasName hlists) hnil⟩

/-- Documents, of which everything is ignored but the key. -/
def documents : TableMapping :=
  { recordType := "Document", tableName := "documents"
    columns := [⟨"id", "document_id", false⟩, ⟨"body", "body", true⟩] }

/-- The key is listed under its own name, and the body is not. -/
theorem selectAll_lists_iff_documents :
    (ofList [documents]).get? "Document" = some documents ∧ documents.tableName ≠ "" ∧
    ∃ q s', (ofList [documents]).selectAll "Document" .empty = .ok (q, s') ∧
      (Statement.select q).validate = .ok () ∧
      ∃ list, (Statement.select q).render .postgres =
        .ok (words [[keyword .SELECT], list, [keyword .FROM],
          renamed [qualified none "documents"] true (some "d")]) ∧
        documents.Lists "d" list ∧ symbol .star ∉ list := by
  have hget : (ofList [documents]).get? "Document" = some documents := by decide +kernel
  have htable : documents.tableName ≠ "" := by decide
  obtain ⟨q, s', aliasName, hq, halias, hvalid, hrender⟩ := selectAll_lists_iff hget htable .empty
  obtain ⟨hnone, -⟩ | ⟨-, hnext⟩ := halias
  · contradiction
  obtain ⟨rfl, rfl⟩ := Prod.mk.inj hnext
  obtain ⟨list, hlist, hlists, hstar⟩ := hrender .postgres
  refine ⟨hget, htable, q, _, hq, hvalid, list, hlist, ?_, ?_⟩
  · exact hlists.mpr ⟨_, List.mem_cons_self, rfl⟩
  · exact fun h => absurd (hstar.mp h) (by simp [documents])

/-- Documents of which the only property is ignored. -/
def hiddenDocuments : TableMapping :=
  { recordType := "Document", tableName := "documents", columns := [⟨"body", "body", true⟩] }

/-- They are read with a star, which reads the ignored property and is no list of the properties
that are not ignored. -/
theorem selectAll_reads_ignored :
    (ofList [hiddenDocuments]).get? "Document" = some hiddenDocuments ∧
    hiddenDocuments.tableName ≠ "" ∧ (∀ c ∈ hiddenDocuments.columns, c.ignored = true) ∧
    ∃ q s', (ofList [hiddenDocuments]).selectAll "Document" .empty = .ok (q, s') ∧
      (Statement.select q).render .postgres =
        .ok (words [[keyword .SELECT], [symbol .star], [keyword .FROM],
          renamed [qualified none "documents"] true (some "d")]) ∧
      ¬hiddenDocuments.Lists "d" [symbol .star] :=
  ⟨by decide +kernel, by decide, by decide, _, _, rfl, rfl, fun h =>
    star_notMem_of_lists hiddenDocuments "d" h List.mem_cons_self⟩

end Registry

end SqlTree
