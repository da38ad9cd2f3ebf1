import SqlTree.Proofs.Stored.Queries
import SqlTree.Stored.Statement

/-!
# Reading stored statements

A stored statement of any kind is read again as the statement if its floats are finite. Two things
are lost. One is the sign of a decimal zero: a negative number whose places are all rounded away is
stored as a zero with a minus sign, and read as a zero without it. The other is a leap second inside
a minute, which has the same text as the second behind it.

* `Statement.IsFinite`: a statement in which all floats are finite.

Results:
* `Statement.ofValue?_toValue_eq_mapConstants`: stored statements are read again.
* `Statement.ofValue?_toValue_ne`: statements that come back with another constant.
-/

namespace SqlTree

open Value

/-! ## Parts of statements -/

theorem UnionMember.ofValue?_toValue {m : UnionMember} (h : (Node.select m.query).ReadsBack) :
    UnionMember.ofValue? m.toValue = some (m.mapConstants Constant.asStored) := by
  obtain ⟨query, modifier⟩ := m
  rw [Node.ReadsBack] at h
  simp [UnionMember.ofValue?, UnionMember.toValue, UnionMember.mapConstants,
    UnionModifier.ofName?_name, h]

theorem Assignment.ofValue?_toValue {a : Assignment} (h : (Node.expr a.value).ReadsBack) :
    Assignment.ofValue? a.toValue = some (a.mapConstants Constant.asStored) := by
  rw [Node.ReadsBack] at h
  simp [Assignment.ofValue?, Assignment.toValue, Assignment.mapConstants, h]

theorem assignmentsOfValue?_toValue {assignments : List Assignment}
    (h : ∀ a ∈ assignments, (Node.expr a.value).ReadsBack) :
    assignmentsOfValue? (.array (assignments.map Assignment.toValue)) =
      some (assignments.map (Assignment.mapConstants Constant.asStored)) := by
  rw [assignmentsOfValue?, list_array,
    mapM_map_of_read fun a ha => Assignment.ofValue?_toValue (h a ha)]

theorem Union.ofValue?_toValue {u : Union} (h : ∀ m ∈ u.members, (Node.select m.query).ReadsBack) :
    Union.ofValue? u.toValue =
      some ⟨u.members.map (UnionMember.mapConstants Constant.asStored)⟩ := by
  have hmembers := mapM_map_of_read fun m hm => UnionMember.ofValue?_toValue (h m hm)
  simp [Union.ofValue?, Union.toValue, hmembers]

theorem Insert.ofValue?_toValue {i : Insert}
    (h : ∀ a ∈ i.assignments, (Node.expr a.value).ReadsBack) :
    Insert.ofValue? i.toValue = some (i.mapConstants Constant.asStored) := by
  obtain ⟨table, namespaceName, assignments⟩ := i
  cases namespaceName <;>
    simp [Insert.ofValue?, Insert.toValue, Insert.mapConstants, fieldIfSome,
      assignmentsOfValue?_toValue h]

theorem BulkInsert.ofValue?_toValue {b : BulkInsert}
    (h : ∀ i ∈ b.rows, ∀ a ∈ i.assignments, (Node.expr a.value).ReadsBack) :
    BulkInsert.ofValue? b.toValue =
      some ⟨b.rows.map (Insert.mapConstants Constant.asStored)⟩ := by
  have hrows := mapM_map_of_read fun i hi => Insert.ofValue?_toValue (h i hi)
  simp [BulkInsert.ofValue?, BulkInsert.toValue, hrows]

theorem Update.ofValue?_toValue {u : Update}
    (h : ∀ a ∈ u.assignments, (Node.expr a.value).ReadsBack)
    (hfilter : (Node.condition u.filter).ReadsBack) : Update.ofValue? u.toValue =
    some { u with
      assignments := u.assignments.map (Assignment.mapConstants Constant.asStored)
      filter := u.filter.mapConstants Constant.asStored } := by
  obtain ⟨table, namespaceName, assignments, filter⟩ := u
  rw [Node.ReadsBack] at hfilter
  cases namespaceName <;>
    simp [Update.ofValue?, Update.toValue, fieldIfSome, assignmentsOfValue?_toValue h, hfilter]

theorem Delete.ofValue?_toValue {d : Delete} (h : (Node.condition d.filter).ReadsBack) :
    Delete.ofValue? d.toValue =
      some { d with filter := d.filter.mapConstants Constant.asStored } := by
  obtain ⟨table, namespaceName, filter⟩ := d
  rw [Node.ReadsBack] at h
  cases namespaceName <;> simp [Delete.ofValue?, Delete.toValue, fieldIfSome, h]

/-! ## Statements -/

namespace Statement

/-- All constants in a statement are finite. -/
def IsFinite (s : Statement) : Prop :=
  ∀ n, s.Contains n → ∀ c ∈ n.literals, c.isFinite = true

theorem readsBack_of_mem_roots {s : Statement} (h : s.IsFinite) {n : Node} (hn : n ∈ s.roots) :
    n.ReadsBack :=
  Node.readsBack fun m hm => h m ⟨n, hn, hm⟩

/-- The content of a statement is read again as a statement of its kind. -/
theorem ofContent?_content {s : Statement} (h : ∀ n ∈ s.roots, n.ReadsBack) :
    ofContent? s.kind s.content = some (s.mapConstants Constant.asStored) := by
  cases s with
  | select q =>
    have hq : Select.ofValue? q.toValue = _ := h (.select q) (List.mem_singleton_self _)
    exact congrArg (Option.map Statement.select) hq
  | union u =>
    have hmembers := List.forall_mem_map.mp h
    exact congrArg (Option.map Statement.union) (Union.ofValue?_toValue hmembers)
  | insert i =>
    have hvalues := List.forall_mem_map.mp h
    exact congrArg (Option.map Statement.insert) (Insert.ofValue?_toValue hvalues)
  | bulkInsert b =>
    have hrows : ∀ i ∈ b.rows, ∀ a ∈ i.assignments, (Node.expr a.value).ReadsBack :=
      fun i hi a ha => h _ (List.mem_flatMap.mpr ⟨i, hi, List.mem_map_of_mem ha⟩)
    exact congrArg (Option.map Statement.bulkInsert) (BulkInsert.ofValue?_toValue hrows)
  | update u =>
    obtain ⟨hassignments, hfilter⟩ := List.forall_mem_append.mp h
    have hvalues := List.forall_mem_map.mp hassignments
    have hfilter := hfilter _ (List.mem_singleton_self _)
    exact congrArg (Option.map Statement.update) (Update.ofValue?_toValue hvalues hfilter)
  | delete d =>
    have hfilter := h (.condition d.filter) (List.mem_singleton_self _)
    exact congrArg (Option.map Statement.delete) (Delete.ofValue?_toValue hfilter)

/-- A stored statement with finite floats is read again as the statement. Only its decimal zeros
lose their minus signs, and a leap second inside a minute becomes the second behind it. -/
theorem ofValue?_toValue_eq_mapConstants (s : Statement) (h : s.IsFinite) :
    ofValue? s.toValue = some (s.mapConstants Constant.asStored) :=
  ofContent?_content fun _ hn => readsBack_of_mem_roots h hn

/-- A new row with one constant. -/
def rowOf (c : Constant) : Statement :=
  .insert { table := "t", assignments := [⟨"a", .constant c⟩] }

theorem isFinite_rowOf {c : Constant} (h : c.isFinite = true) : (rowOf c).IsFinite := by
  rintro n ⟨r, hr, hn⟩
  obtain rfl : r = .expr (.constant c) := List.mem_singleton.mp hr
  have hself : (Node.expr (.constant c)).IsFinite :=
    Node.forall_contains_of_children_eq_nil (by simpa [Node.literals] using h) rfl
  exact hself n hn

/-- A float without decimal places stays a float. -/
theorem ofValue?_toValue_rowOf_float :
    (rowOf (.number (.float 2.0))).IsFinite ∧
    ofValue? (rowOf (.number (.float 2.0))).toValue = some (rowOf (.number (.float 2.0))) := by
  have hfinite : (rowOf (.number (.float 2.0))).IsFinite := isFinite_rowOf (by decide +kernel)
  exact ⟨hfinite, ofValue?_toValue_eq_mapConstants _ hfinite⟩

/-- A decimal zero of 28 places with a minus sign. -/
def negativeZero : Constant :=
  .number (.decimal ⟨true, 0, 28, by decide, by decide⟩)

/-- A third of a second into a leap second inside a minute. -/
def innerLeapSecond : Constant :=
  .date ⟨⟨2015, 7, 1, by decide⟩, ⟨23, 56, 4, 1333333333, by decide⟩⟩

theorem ofValue?_rowOf_ne {c : Constant} (h : c.isFinite = true) (hc : c.asStored ≠ c) :
    ofValue? (rowOf c).toValue ≠ some (rowOf c) := by
  have hread : ofValue? (rowOf c).toValue = some (rowOf c.asStored) :=
    ofContent?_content fun _ hn => readsBack_of_mem_roots (isFinite_rowOf h) hn
  rw [hread]
  simpa [rowOf] using hc

/-- A decimal zero with a minus sign is read without it, and a leap second inside a minute is read
as the second behind it. -/
theorem ofValue?_toValue_ne :
    ((rowOf negativeZero).IsFinite ∧
      ofValue? (rowOf negativeZero).toValue ≠ some (rowOf negativeZero)) ∧
    (rowOf innerLeapSecond).IsFinite ∧
      ofValue? (rowOf innerLeapSecond).toValue ≠ some (rowOf innerLeapSecond) := by
  refine ⟨⟨isFinite_rowOf rfl, ofValue?_rowOf_ne rfl ?_⟩, isFinite_rowOf rfl,
    ofValue?_rowOf_ne rfl ?_⟩
  · simp [negativeZero, Constant.asStored, Number.Decimal.withoutZeroSign]
  · simp [innerLeapSecond, Constant.asStored, Calendar.Timestamp.asRead_eq_self_iff,
      Calendar.TimeOfDay.HasOwnText]

end Statement

end SqlTree
