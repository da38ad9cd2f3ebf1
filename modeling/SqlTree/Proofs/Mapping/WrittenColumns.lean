import SqlTree.Mapping.Registry

/-!
# Columns that inserts write

A property is read from its first column that is not ignored. An insert looks for the first column
of the property, ignored or not, and writes nothing if it is ignored. So the value of a property
gets lost if an ignored column of the property comes before one that is read.

* `TableMapping.Knows`: whether a property has a column at all.
* `TableMapping.Hides`: whether an ignored column hides the one that a property is read from.
* `TableMapping.stored`: the assignments of values to the columns that properties are read from.

Results:
* `Registry.assignment_of_knows`: what an insert writes for one property.
* `Registry.insertFor_eq_error_iff`: an insert fails at the first property without a column.
* `Registry.insertFor_writes_iff`: it writes to the columns that are read, but for the properties
  that are hidden.
* `Registry.insertFor_loses_name`: an insert that loses a value.
-/

namespace SqlTree

/-! ## Properties of a mapping -/

namespace TableMapping

/-- A property has a column, which may be ignored. -/
def Knows (m : TableMapping) (property : String) : Prop := ∃ c ∈ m.columns, c.property = property

instance (m : TableMapping) (property : String) : Decidable (m.Knows property) :=
  inferInstanceAs (Decidable (∃ _ ∈ _, _))

/-- The first column of a property is ignored, and another one is not. -/
def Hides (m : TableMapping) (property : String) : Prop :=
  (∃ c ∈ m.columns.find? fun c => c.property == property, c.ignored = true) ∧
    ∃ c ∈ m.columns, c.property = property ∧ c.ignored = false

instance (m : TableMapping) (property : String) : Decidable (m.Hides property) :=
  inferInstanceAs (Decidable (_ ∧ _))

/-- The assignments of values to the columns that their properties are read from. The value of a
property that is not read has none. -/
def stored (m : TableMapping) (values : List (String × Constant)) : List Assignment :=
  values.filterMap fun p => (m.columnFor? p.1).map fun column => ⟨column, .constant p.2⟩

variable {m : TableMapping} {property : String}

/-- A property is read if it has a column that is not ignored. -/
theorem isSome_columnFor?_iff :
    (m.columnFor? property).isSome = true ↔
      ∃ c ∈ m.columns, c.property = property ∧ c.ignored = false := by
  simp [columnFor?]

/-- Unless the first column of a property is ignored, it is the one that is read. -/
theorem columnFor?_of_find? {c : ColumnMapping}
    (h : m.columns.find? (fun c => c.property == property) = some c) (hc : c.ignored = false) :
    m.columnFor? property = some c.column := by
  obtain ⟨hproperty, before, after, hcolumns, hbefore⟩ := List.find?_eq_some_iff_append.mp h
  have hread : m.columns.find? (fun c => c.property == property && !c.ignored) = some c := by
    refine List.find?_eq_some_iff_append.mpr ⟨by simp [hproperty, hc], before, after, hcolumns, ?_⟩
    intro b hb
    simpa using Or.inl (hbefore b hb)
  rw [columnFor?, hread, Option.map_some]

theorem stored_cons (p : String × Constant) (values : List (String × Constant)) :
    m.stored (p :: values) = m.stored [p] ++ m.stored values := by
  rw [stored, ← List.singleton_append, List.filterMap_append]
  rfl

theorem length_stored_singleton_of_hides {p : String × Constant} (h : m.Hides p.1) :
    (m.stored [p]).length = 1 := by
  obtain ⟨column, hcolumn⟩ := Option.isSome_iff_exists.mp (isSome_columnFor?_iff.mpr h.2)
  simp [stored, hcolumn]

theorem length_stored_filter_le (values : List (String × Constant)) :
    (m.stored (values.filter fun p => ¬m.Hides p.1)).length ≤ (m.stored values).length := by
  have hsub : (m.stored (values.filter fun p => ¬m.Hides p.1)).Sublist (m.stored values) :=
    List.filter_sublist.filterMap _
  exact hsub.length_le

/-- Each hidden property has one assignment, so there are fewer without them. -/
theorem stored_filter_eq_iff (values : List (String × Constant)) :
    m.stored (values.filter fun p => ¬m.Hides p.1) = m.stored values ↔
      ∀ p ∈ values, ¬m.Hides p.1 := by
  constructor
  · intro h
    induction values with
    | nil => simp
    | cons p values ih =>
      have hle := length_stored_filter_le (m := m) values
      by_cases hp : m.Hides p.1
      · have hlength := congrArg List.length h
        rw [List.filter_cons_of_neg (by simpa using hp), m.stored_cons p values,
          List.length_append, length_stored_singleton_of_hides hp] at hlength
        omega
      · rw [List.filter_cons_of_pos (by simpa using hp), m.stored_cons p, m.stored_cons p values,
          List.append_cancel_left_eq] at h
        exact List.forall_mem_cons.mpr ⟨hp, ih h⟩
  · intro h
    rw [List.filter_eq_self.mpr fun p hp => by simpa using h p hp]

theorem exists_first_unknown {values : List (String × Constant)}
    (h : ∃ p ∈ values, ¬m.Knows p.1) :
    ∃ before p after, values = before ++ p :: after ∧ (∀ q ∈ before, m.Knows q.1) ∧
      ¬m.Knows p.1 := by
  have hsome : (values.find? fun p => ¬m.Knows p.1).isSome = true := by
    simpa [List.find?_isSome] using h
  obtain ⟨p, hp⟩ := Option.isSome_iff_exists.mp hsome
  obtain ⟨hunknown, before, after, hvalues, hbefore⟩ := List.find?_eq_some_iff_append.mp hp
  exact ⟨before, p, after, hvalues, by simpa using hbefore, by simpa using hunknown⟩

end TableMapping

/-! ## Errors in a list -/

section Lists

variable {α β ε : Type} {f : α → Except ε β}

/-- If each member of a list has a result, the list has their results. -/
theorem mapM_eq_ok_of_forall {g : α → β} {l : List α} (h : ∀ x ∈ l, f x = .ok (g x)) :
    l.mapM f = .ok (l.map g) := by
  induction l with
  | nil => rfl
  | cons x l ih =>
    obtain ⟨hx, hl⟩ := List.forall_mem_cons.mp h
    rw [List.mapM_cons, hx, ih hl]
    rfl

/-- The error of a list is that of its first member with an error. -/
theorem mapM_eq_error_of_append {before after : List α} {x : α} {e : ε}
    (hbefore : ∀ y ∈ before, ∃ b, f y = .ok b) (hx : f x = .error e) :
    (before ++ x :: after).mapM f = .error e := by
  induction before with
  | nil =>
    rw [List.nil_append, List.mapM_cons, hx]
    rfl
  | cons y before ih =>
    obtain ⟨⟨b, hy⟩, hrest⟩ := List.forall_mem_cons.mp hbefore
    rw [List.cons_append, List.mapM_cons, hy, ih hrest]
    rfl

end Lists

/-! ## Inserts -/

namespace Registry

variable {r : Registry} {recordType : String} {m : TableMapping}

theorem recordType_of_get? (hm : r.get? recordType = some m) : m.recordType = recordType := by
  simpa using List.find?_some hm

theorem assignment_of_not_knows {p : String × Constant} (h : ¬m.Knows p.1) :
    assignment m p = .error (.unknownProperty m.recordType p.1) := by
  have hnone : m.columns.find? (fun c => c.property == p.1) = none := by
    refine List.find?_eq_none.mpr fun c hc => ?_
    simpa using fun hproperty => h ⟨c, hc, hproperty⟩
  rw [assignment, hnone]

/-- The value of a property is written to the column that it is read from, unless this is
hidden. -/
theorem assignment_of_knows {p : String × Constant} (h : m.Knows p.1) :
    assignment m p = .ok (if m.Hides p.1 then none
      else (m.columnFor? p.1).map fun column => ⟨column, .constant p.2⟩) := by
  obtain ⟨b, hb, hproperty⟩ := h
  have hsome : (m.columns.find? fun c => c.property == p.1).isSome = true :=
    List.find?_isSome.mpr ⟨b, hb, by simp [hproperty]⟩
  obtain ⟨c, hc⟩ := Option.isSome_iff_exists.mp hsome
  rw [assignment, hc]
  cases hignored : c.ignored with
  | false =>
    have hhides : ¬m.Hides p.1 := by
      rintro ⟨⟨d, hd, hd'⟩, -⟩
      obtain rfl := Option.some.inj (hc.symm.trans hd)
      simp [hignored] at hd'
    simp [hignored, hhides, TableMapping.columnFor?_of_find? hc hignored]
  | true =>
    by_cases hread : (m.columnFor? p.1).isSome = true
    · have hhides : m.Hides p.1 :=
        ⟨⟨c, hc, hignored⟩, TableMapping.isSome_columnFor?_iff.mp hread⟩
      simp [hignored, hhides]
    · have hhides : ¬m.Hides p.1 := fun hhides =>
        hread (TableMapping.isSome_columnFor?_iff.mpr hhides.2)
      simp [hignored, hhides, Option.not_isSome_iff_eq_none.mp hread]

theorem insertFor_eq (hm : r.get? recordType = some m) (values : List (String × Constant)) :
    r.insertFor recordType values = (values.mapM (assignment m)).map fun assignments =>
      { table := m.tableName, assignments := assignments.reduceOption } := by
  rw [insertFor, require, hm]
  show (values.mapM (assignment m) >>= _) = _
  cases values.mapM (assignment m) <;> rfl

/-- If every property has a column, the values are written to the columns that their properties are
read from, but for those of hidden properties. -/
theorem insertFor_of_knows (hm : r.get? recordType = some m) {values : List (String × Constant)}
    (h : ∀ p ∈ values, m.Knows p.1) :
    r.insertFor recordType values = .ok
      { table := m.tableName
        assignments := m.stored (values.filter fun p => ¬m.Hides p.1) } := by
  have hreduce (l : List (Option Assignment)) : l.reduceOption = l.filterMap id := rfl
  rw [insertFor_eq hm, mapM_eq_ok_of_forall fun p hp => assignment_of_knows (h p hp)]
  simp only [Except.map, Except.ok.injEq, Insert.mk.injEq, true_and, hreduce, List.filterMap_map,
    TableMapping.stored, List.filterMap_filter]
  congr 1
  funext p
  by_cases hp : m.Hides p.1 <;> simp [hp]

/-- An insert fails at the first property that has no column. -/
theorem insertFor_of_not_knows (hm : r.get? recordType = some m)
    {before after : List (String × Constant)} {p : String × Constant}
    (hbefore : ∀ q ∈ before, m.Knows q.1) (hp : ¬m.Knows p.1) :
    r.insertFor recordType (before ++ p :: after) =
      .error (.unknownProperty recordType p.1) := by
  have herror : (before ++ p :: after).mapM (assignment m) = .error _ :=
    mapM_eq_error_of_append (fun q hq => ⟨_, assignment_of_knows (hbefore q hq)⟩)
      (assignment_of_not_knows hp)
  rw [insertFor_eq hm, herror, recordType_of_get? hm]
  rfl

/-- The only error of an insert is that a property has no column, and it names the first one. -/
theorem insertFor_eq_error_iff (hm : r.get? recordType = some m)
    (values : List (String × Constant)) (e : Error) :
    r.insertFor recordType values = .error e ↔
      ∃ before p after, values = before ++ p :: after ∧ (∀ q ∈ before, m.Knows q.1) ∧
        ¬m.Knows p.1 ∧ e = .unknownProperty recordType p.1 := by
  constructor
  · intro herror
    by_cases hknows : ∀ p ∈ values, m.Knows p.1
    · rw [insertFor_of_knows hm hknows] at herror
      contradiction
    · have hunknown : ∃ p ∈ values, ¬m.Knows p.1 := by simpa using hknows
      obtain ⟨before, p, after, rfl, hbefore, hp⟩ := TableMapping.exists_first_unknown hunknown
      rw [insertFor_of_not_knows hm hbefore hp] at herror
      exact ⟨before, p, after, rfl, hbefore, hp, (Except.error.inj herror).symm⟩
  · rintro ⟨before, p, after, rfl, hbefore, hp, rfl⟩
    exact insertFor_of_not_knows hm hbefore hp

/-- An insert fails exactly if some property has no column, and names the first such property.
Otherwise it is an insert into the table of the mapping that sets, in their order, the columns that
the properties are read from, but for those of hidden properties. So it sets every column that is
read exactly if no property is hidden. -/
theorem insertFor_writes_iff (hm : r.get? recordType = some m)
    (values : List (String × Constant)) :
    ((∃ property, r.insertFor recordType values = .error (.unknownProperty recordType property)) ↔
      ∃ p ∈ values, ¬m.Knows p.1) ∧
    (∀ e, r.insertFor recordType values = .error e ↔
      ∃ before p after, values = before ++ p :: after ∧ (∀ q ∈ before, m.Knows q.1) ∧
        ¬m.Knows p.1 ∧ e = .unknownProperty recordType p.1) ∧
    ((∀ p ∈ values, m.Knows p.1) →
      ∃ i, r.insertFor recordType values = .ok i ∧ i.table = m.tableName ∧
        i.namespaceName = none ∧
        i.assignments = m.stored (values.filter fun p => ¬m.Hides p.1) ∧
        (i.assignments = m.stored values ↔ ∀ p ∈ values, ¬m.Hides p.1)) := by
  refine ⟨⟨?_, ?_⟩, insertFor_eq_error_iff hm values, ?_⟩
  · rintro ⟨property, herror⟩
    obtain ⟨before, p, after, rfl, -, hp, -⟩ := (insertFor_eq_error_iff hm values _).mp herror
    exact ⟨p, by simp, hp⟩
  · intro hunknown
    obtain ⟨before, p, after, rfl, hbefore, hp⟩ := TableMapping.exists_first_unknown hunknown
    exact ⟨p.1, insertFor_of_not_knows hm hbefore hp⟩
  · intro hknows
    exact ⟨_, insertFor_of_knows hm hknows, rfl, rfl, rfl, TableMapping.stored_filter_eq_iff values⟩

/-- Customers with an old column of the name, which is ignored, behind the one in use. -/
def customers : TableMapping :=
  { recordType := "Customer", tableName := "customers"
    columns := [⟨"Id", "id", false⟩, ⟨"Name", "full_name", false⟩, ⟨"Name", "name", true⟩] }

/-- The name of a customer is written to the column that it is read from. -/
theorem insertFor_writes_iff_customers :
    (ofList [customers]).get? "Customer" = some customers ∧
    (∀ p ∈ [("Id", Constant.number (.int 7)), ("Name", .string "Ada")], customers.Knows p.1) ∧
    (∀ p ∈ [("Id", Constant.number (.int 7)), ("Name", .string "Ada")], ¬customers.Hides p.1) ∧
    ∃ i, (ofList [customers]).insertFor "Customer"
        [("Id", .number (.int 7)), ("Name", .string "Ada")] = .ok i ∧ i.table = "customers" ∧
      i.assignments = [⟨"id", .constant (.number (.int 7))⟩,
        ⟨"full_name", .constant (.string "Ada")⟩] := by
  have hget : (ofList [customers]).get? "Customer" = some customers := by decide +kernel
  have hknows : ∀ p ∈ [("Id", Constant.number (.int 7)), ("Name", .string "Ada")],
      customers.Knows p.1 := by decide
  have hhides : ∀ p ∈ [("Id", Constant.number (.int 7)), ("Name", .string "Ada")],
      ¬customers.Hides p.1 := by decide
  obtain ⟨-, -, hwrites⟩ := insertFor_writes_iff hget
    [("Id", .number (.int 7)), ("Name", .string "Ada")]
  obtain ⟨i, hi, htable, -, -, hiff⟩ := hwrites hknows
  exact ⟨hget, hknows, hhides, i, hi, htable, hiff.mpr hhides⟩

/-- Customers with an old column of the name, which is ignored, in front of the one in use. -/
def renamedCustomers : TableMapping :=
  { recordType := "Customer", tableName := "customers"
    columns := [⟨"Id", "id", false⟩, ⟨"Name", "name", true⟩, ⟨"Name", "full_name", false⟩] }

/-- The name of such a customer is read from a column that an insert does not set. -/
theorem insertFor_loses_name :
    (ofList [renamedCustomers]).get? "Customer" = some renamedCustomers ∧
    renamedCustomers.columnFor? "Name" = some "full_name" ∧
    ∃ i, (ofList [renamedCustomers]).insertFor "Customer"
        [("Id", .number (.int 7)), ("Name", .string "Ada")] = .ok i ∧
      i.assignments = [⟨"id", .constant (.number (.int 7))⟩] ∧
      i.assignments ≠ renamedCustomers.stored
        [("Id", .number (.int 7)), ("Name", .string "Ada")] := by
  refine ⟨by decide +kernel, by decide, _, rfl, rfl, fun h => ?_⟩
  exact absurd (congrArg List.length h) (by decide)

end Registry

end SqlTree
