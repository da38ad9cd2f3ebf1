import Mathlib.Data.List.Forall2
import Mathlib.Data.List.Nodup
import SqlTree.Proofs.Rendering.ForeignTokens

/-!
# Rows of a bulk insert

An insert of several rows writes the fields of its first row as columns, and the values of each row
in the order of these fields. It finds a value by its field and writes `NULL` where there is none.
In a valid insert every row sets the fields of the first one, each once and to a literal, so there
is exactly one value to find, wherever the row has it.

* `Insert.HasCell`: what is written for the value that a row gives to a field;
* `cellsWords`: rows of cells, as a list of rows or as queries of one row each.

Results:
* `Insert.filter_field_eq`: an assignment of a row is the only one to its field.
* `Insert.valuesOf_of_perm`: the values of a row do not depend on the order of its assignments.
* `BulkInsert.cells_of_validate`: a valid insert writes the value that a row gives to a field in the
  column of the field.
-/

namespace SqlTree

open Token

/-! ## Values by field -/

namespace Insert

variable {row : Insert} {field : String} {e : Expr}

/-- In a row that sets no field twice, an assignment is the only one to its field. -/
theorem filter_field_eq {a : Assignment} (h : row.fields.Nodup) (ha : a ∈ row.assignments) :
    row.assignments.filter (·.field = a.field) = [a] :=
  filter_eq_singleton h ha

theorem exists_filter_field_eq (h : row.fields.Nodup) (hf : field ∈ row.fields) :
    ∃ a ∈ row.assignments, row.assignments.filter (·.field = field) = [a] ∧ a.field = field := by
  obtain ⟨a, ha, rfl⟩ := List.mem_map.mp hf
  exact ⟨a, ha, filter_field_eq h ha, rfl⟩

/-- The value of a field that is set once is found. -/
theorem valueOf?_eq_some {a : Assignment}
    (h : row.assignments.filter (·.field = field) = [a]) : row.valueOf? field = some a.value := by
  have hfind : row.assignments.find? (·.field = field) = some a := by
    rw [← List.head?_filter, h, List.head?_cons]
  show (row.assignments.find? (·.field = field)).map Assignment.value = some a.value
  rw [hfind, Option.map_some]

/-- The values of a row do not depend on the order of its assignments. -/
theorem valuesOf_of_perm {fields : List String} {as : List Assignment} (h : row.fields.Nodup)
    (hfields : ∀ f ∈ fields, f ∈ row.fields) (has : as.Perm row.assignments) :
    { row with assignments := as }.valuesOf fields = row.valuesOf fields := by
  refine List.map_congr_left fun f hf => ?_
  obtain ⟨a, -, hone, -⟩ := exists_filter_field_eq h (hfields f hf)
  have hone' : { row with assignments := as }.assignments.filter (·.field = f) = [a] := by
    rw [← List.perm_singleton, ← hone]
    exact has.filter _
  rw [valueOf?_eq_some hone, valueOf?_eq_some hone']

/-- The values of the own fields of a row are its values in their order. -/
theorem valuesOf_fields (h : row.fields.Nodup) :
    row.valuesOf row.fields = row.assignments.map Assignment.value := by
  rw [valuesOf, fields, List.map_map]
  refine List.map_congr_left fun a ha => ?_
  rw [Function.comp_apply, valueOf?_eq_some (filter_field_eq h ha), Option.getD_some]

end Insert

/-! ## Cells -/

variable (d : Dialect)

/-- A literal renders as one token. -/
theorem Expr.render_of_isLiteral {e : Expr} (h : e.isLiteral = true) :
    e.render d = .ok (valueTokens d e) ∧ (valueTokens d e).length = 1 := by
  have hsame : e.forDialect d = e := by
    unfold forDialect
    cases e <;> first | contradiction | simp [expandPages]
  rw [render, valueTokens, hsame]
  cases e <;> first | contradiction | exact ⟨rfl, rfl⟩

/-- A row sets a field once, and a cell is the one token for the value that the field gets. -/
def Insert.HasCell (row : Insert) (field : String) (cell : List Token) : Prop :=
  ∃ e, row.assignments.filter (·.field = field) = [⟨field, e⟩] ∧ e.render d = .ok cell ∧
    cell.length = 1

/-- The words for rows of cells: a list of rows where the dialect has such lists, and else queries
of one row each, from `DUAL`. -/
def cellsWords (rows : List (List (List Token))) : List (List Token) :=
  if d.hasRowLists then
    [[keyword .VALUES], commaList (rows.map fun cells => parens (commaList cells))]
  else
    [[keyword .UNION], [keyword .ALL]].intercalate (rows.map fun cells =>
      [[keyword .SELECT], commaList cells, [keyword .FROM], [keyword .DUAL]])

/-- The words for rows of values are those for their cells. -/
theorem rowsWords_cons (row : List Expr) (rows : List (List Expr)) :
    rowsWords d (row :: rows) = cellsWords d ((row :: rows).map (List.map (valueTokens d))) := by
  rw [rowsWords, cellsWords]
  split
  · rw [List.map_map]
    rfl
  · rw [List.map_map, List.map_cons, intercalate_cons, List.flatMap_map]
    rfl

/-- The cells of a row that is like the first one. -/
theorem Insert.IsRowAfter.forall₂_hasCell {first row : Insert} (h : first.IsRowAfter row) :
    List.Forall₂ (row.HasCell d) first.fields
      ((row.valuesOf first.fields).map (valueTokens d)) := by
  unfold Insert.valuesOf
  rw [List.map_map, List.forall₂_map_right_iff, List.forall₂_same]
  intro field hfield
  obtain ⟨⟨_, e⟩, ha, hone, rfl⟩ :=
    Insert.exists_filter_field_eq h.setsFields.nodup ((h.sameFields field).mpr hfield)
  obtain ⟨hrender, hlength⟩ := Expr.render_of_isLiteral d (h.literals _ ha)
  rw [Function.comp_apply, Insert.valueOf?_eq_some hone, Option.getD_some]
  exact ⟨e, hone, hrender, hlength⟩

theorem valueObstacles_of_isLiteral {e : Expr} (h : e.isLiteral = true) :
    valueObstacles d e = [] :=
  (firstObstacle_map_eq_ok_iff.mp (e.render_of_isLiteral d h).1).1

theorem Insert.IsRowAfter.isLiteral_of_mem_valuesOf {first row : Insert}
    (h : first.IsRowAfter row) : ∀ e ∈ row.valuesOf first.fields, e.isLiteral = true := by
  intro e he
  obtain ⟨f, hf, rfl⟩ := List.mem_map.mp he
  obtain ⟨a, ha, hone, -⟩ :=
    Insert.exists_filter_field_eq h.setsFields.nodup ((h.sameFields f).mpr hf)
  rw [Insert.valueOf?_eq_some hone, Option.getD_some]
  exact h.literals a ha

/-! ## Bulk inserts -/

namespace BulkInsert

theorem tokens_cons (first : Insert) (rest : List Insert) :
    BulkInsert.tokens d ⟨first :: rest⟩ =
      words (insertWords first.table first.namespaceName first.fields ++
        rowsWords d ((first :: rest).map (·.valuesOf first.fields))) := rfl

theorem obstacles_cons (first : Insert) (rest : List Insert) :
    BulkInsert.obstacles d ⟨first :: rest⟩ =
      ((first :: rest).map (·.valuesOf first.fields)).flatMap
        (List.flatMap (valueObstacles d)) := by
  rw [List.flatMap_map]
  rfl

/-- Behind one first row, rows with the same values render alike. -/
theorem render_congr {first : Insert} {rest rest' : List Insert}
    (h : rest'.map (·.valuesOf first.fields) = rest.map (·.valuesOf first.fields)) :
    (Statement.bulkInsert ⟨first :: rest'⟩).render d =
      (Statement.bulkInsert ⟨first :: rest⟩).render d := by
  simp only [Statement.render, Statement.obstacles, Statement.tokens, obstacles_cons, tokens_cons,
    List.map_cons, h]

/-- The rows of a valid insert are like the first one. -/
theorem isRowAfter_of_validate {first : Insert} {rest : List Insert}
    (h : (Statement.bulkInsert ⟨first :: rest⟩).validate = .ok ()) :
    ∀ row ∈ first :: rest, first.IsRowAfter row := by
  have hvalid := Statement.validate_eq_ok_iff.mp h
  rw [Statement.violations_eq_nil_iff] at hvalid
  obtain ⟨⟨first', hhead, hrows⟩, -⟩ := hvalid
  obtain rfl : first = first' := Option.some.inj hhead
  exact hrows

section Rows

variable {first : Insert} {rest : List Insert} (h : ∀ row ∈ first :: rest, first.IsRowAfter row)

include h

/-- Rows of literals render in every dialect. -/
theorem render_eq :
    (Statement.bulkInsert ⟨first :: rest⟩).render d =
      .ok (words (insertWords first.table first.namespaceName first.fields ++
        cellsWords d ((first :: rest).map fun row =>
          (row.valuesOf first.fields).map (valueTokens d)))) := by
  refine firstObstacle_map_eq_ok_iff.mpr ⟨?_, ?_⟩
  · rw [Statement.obstacles, obstacles_cons, List.flatMap_map, List.flatMap_eq_nil_iff]
    intro row hrow
    exact List.flatMap_eq_nil_iff.mpr fun e he =>
      valueObstacles_of_isLiteral d ((h row hrow).isLiteral_of_mem_valuesOf e he)
  · rw [Statement.tokens, tokens_cons, List.map_cons, rowsWords_cons, List.map_cons, List.map_map]
    rfl

/-- Behind the first row, the order of the assignments in a row makes no difference. -/
theorem render_of_perm {rest' : List Insert}
    (hperm : List.Forall₂ (fun row row' => ∃ as : List Assignment, as.Perm row.assignments ∧
      row' = { row with assignments := as }) rest rest') :
    (Statement.bulkInsert ⟨first :: rest'⟩).render d =
      (Statement.bulkInsert ⟨first :: rest⟩).render d := by
  refine render_congr d ?_
  have hrest : ∀ row ∈ rest, first.IsRowAfter row := (List.forall_mem_cons.mp h).2
  clear h
  induction hperm with
  | nil => rfl
  | @cons row _ rest rest' hrow _ ih =>
    obtain ⟨hfirst, hothers⟩ := List.forall_mem_cons.mp hrest
    obtain ⟨as, has, rfl⟩ := hrow
    have hvalues : { row with assignments := as }.valuesOf first.fields =
        row.valuesOf first.fields :=
      Insert.valuesOf_of_perm hfirst.setsFields.nodup
        (fun f hf => (hfirst.sameFields f).mpr hf) has
    rw [List.map_cons, List.map_cons, ih hothers, hvalues]

/-- Where there are lists of rows, an insert of one row is written as the insert of this row. -/
theorem render_singleton (hlists : d.hasRowLists = true) (hrest : rest = []) :
    (Statement.bulkInsert ⟨first :: rest⟩).render d = (Statement.insert first).render d := by
  have hfirst := h first List.mem_cons_self
  have hvalues := Insert.valuesOf_fields hfirst.setsFields.nodup
  rw [render_eq d h, hrest]
  refine (firstObstacle_map_eq_ok_iff.mpr ⟨?_, ?_⟩).symm
  · exact List.flatMap_eq_nil_iff.mpr fun a ha =>
      valueObstacles_of_isLiteral d (hfirst.literals a ha)
  · rw [cellsWords, if_pos hlists, List.map_singleton, List.map_singleton, commaList_singleton,
      hvalues]
    rfl

end Rows

/-- A valid insert of several rows lists the fields of its first row, and for each row, in the order
of these fields, the cells of the values that the row itself gives to them. Each value is found. The
order of the assignments in the rows after the first one makes no difference, and where there are
lists of rows, an insert of one row is written as the insert of this row. -/
theorem cells_of_validate {b : BulkInsert} (h : (Statement.bulkInsert b).validate = .ok ()) :
    ∃ first rest, b.rows = first :: rest ∧
      (∃ table,
        List.Forall₂ (fun row cells => List.Forall₂ (row.HasCell d) first.fields cells)
          b.rows table ∧
        (Statement.bulkInsert b).render d =
          .ok (words ([[keyword .INSERT], [keyword .INTO],
            [qualified first.namespaceName first.table],
            parens (commaList (first.fields.map fun f => [ident f]))] ++ cellsWords d table))) ∧
      (∀ row ∈ b.rows, ∀ f ∈ first.fields, (row.valueOf? f).isSome = true) ∧
      (∀ rest',
        List.Forall₂ (fun row row' => ∃ as : List Assignment, as.Perm row.assignments ∧
          row' = { row with assignments := as }) rest rest' →
        (Statement.bulkInsert ⟨first :: rest'⟩).render d = (Statement.bulkInsert b).render d) ∧
      (d.hasRowLists = true → rest = [] →
        (Statement.bulkInsert b).render d = (Statement.insert first).render d) := by
  obtain ⟨rows⟩ := b
  cases rows with
  | nil => contradiction
  | cons first rest =>
    have hrows := isRowAfter_of_validate h
    refine ⟨first, rest, rfl, ⟨_, ?_, render_eq d hrows⟩, ?_, fun rest' => render_of_perm d hrows,
      render_singleton d hrows⟩
    · rw [List.forall₂_map_right_iff, List.forall₂_same]
      exact fun row hrow => (hrows row hrow).forall₂_hasCell d
    · intro row hrow f hf
      obtain ⟨a, -, hone, -⟩ := Insert.exists_filter_field_eq (hrows row hrow).setsFields.nodup
        (((hrows row hrow).sameFields f).mpr hf)
      rw [Insert.valueOf?_eq_some hone, Option.isSome_some]

/-- An order of a customer. -/
def adasOrder : Insert :=
  { table := "orders"
    assignments := [⟨"id", .constant (.number (.int 1))⟩, ⟨"customer", .constant (.string "Ada")⟩] }

/-- An order without a customer. -/
def nobodysOrder : Insert :=
  { table := "orders"
    assignments := [⟨"customer", .null⟩, ⟨"id", .constant (.number (.int 2))⟩] }

/-- Oracle gets the number of the second order first, as it is in the first one. Nothing else would
be written if the order named its number first. -/
theorem cells_of_validate_orders :
    (Statement.bulkInsert ⟨[adasOrder, nobodysOrder]⟩).validate = .ok () ∧
    (∃ ada nobody id customer, adasOrder.HasCell .oracle "id" ada ∧
      nobodysOrder.HasCell .oracle "id" id ∧ nobodysOrder.HasCell .oracle "customer" customer ∧
      (Statement.bulkInsert ⟨[adasOrder, nobodysOrder]⟩).render .oracle =
        .ok (words ([[keyword .INSERT], [keyword .INTO], [qualified none "orders"],
          parens (commaList [[ident "id"], [ident "customer"]])] ++
            cellsWords .oracle [[ada, nobody], [id, customer]]))) ∧
    (Statement.bulkInsert ⟨[adasOrder,
      { nobodysOrder with assignments := nobodysOrder.assignments.reverse }]⟩).render .oracle =
        (Statement.bulkInsert ⟨[adasOrder, nobodysOrder]⟩).render .oracle := by
  have hvalid : (Statement.bulkInsert ⟨[adasOrder, nobodysOrder]⟩).validate = .ok () := rfl
  obtain ⟨first, rest, hrows, ⟨table, htable, hrender⟩, -, hperm, -⟩ :=
    cells_of_validate .oracle hvalid
  obtain ⟨rfl, rfl⟩ := List.cons_eq_cons.mp hrows
  obtain ⟨_, _, hada, hothers, rfl⟩ := List.forall₂_cons_left_iff.mp htable
  obtain ⟨_, _, hnobody, hnone, rfl⟩ := List.forall₂_cons_left_iff.mp hothers
  obtain rfl := List.forall₂_nil_left_iff.mp hnone
  obtain ⟨ada, _, hid, hada', rfl⟩ := List.forall₂_cons_left_iff.mp hada
  obtain ⟨name, _, -, hada'', rfl⟩ := List.forall₂_cons_left_iff.mp hada'
  obtain rfl := List.forall₂_nil_left_iff.mp hada''
  obtain ⟨id, _, hid', hnobody', rfl⟩ := List.forall₂_cons_left_iff.mp hnobody
  obtain ⟨customer, _, hcustomer, hnobody'', rfl⟩ := List.forall₂_cons_left_iff.mp hnobody'
  obtain rfl := List.forall₂_nil_left_iff.mp hnobody''
  exact ⟨hvalid, ⟨ada, name, id, customer, hid, hid', hcustomer, hrender⟩,
    hperm _ (.cons ⟨_, List.reverse_perm _, rfl⟩ .nil)⟩

end BulkInsert

end SqlTree
