import Mathlib.Data.List.Nodup
import SqlTree.Proofs.Tree.Violations
import SqlTree.Validity.Statement

/-!
# Valid statements

A statement is checked as a whole first and then node by node. What it accepts is again said without
an order: the rule of the statement's kind, and the rule of each node anywhere in it.

Results:
* `Statement.violations_eq_nil_iff`: the rule of a statement and the validity of the trees that it
  consists of.
* `Statement.violations_of_contains`: the trees in a valid statement are valid.
* `Statement.validate_eq_ok_iff_keepsRule`: a statement is valid exactly if it and every node
  anywhere in it keep their rules.
-/

namespace SqlTree

theorem Statement.validate_eq_ok_iff {s : Statement} :
    s.validate = .ok () ↔ s.violations = [] := by
  unfold validate
  cases s.violations <;> simp [firstViolation]

theorem UnionMember.violationsOfAll_eq_nil_iff (members : List UnionMember) (index : Nat) :
    UnionMember.violationsOfAll index members = [] ↔
      (∀ m ∈ members, m.query.orderBy = [] ∧ m.query.page = none) ∧
        ∀ m ∈ members, m.query.violations = [] := by
  induction members generalizing index with
  | nil => simp [UnionMember.violationsOfAll]
  | cons m members ih =>
    have hrule : violationIf (m.query.orderBy ≠ [] ∨ m.query.page.isSome)
        (.unionMemberOrdered index) = [] ↔ m.query.orderBy = [] ∧ m.query.page = none := by
      simp
    simp only [UnionMember.violationsOfAll, List.append_eq_nil_iff, hrule, ih,
      List.forall_mem_cons]
    grind

/-- Where names are different, a member of a list is the only one of its name. -/
theorem filter_eq_singleton {α β : Type} [DecidableEq β] {f : α → β} {l : List α} {a : α}
    (h : (l.map f).Nodup) (ha : a ∈ l) : l.filter (fun b => f b = f a) = [a] := by
  obtain ⟨before, after, rfl⟩ := List.append_of_mem ha
  rw [List.map_append, List.map_cons, List.nodup_middle, List.nodup_cons, List.mem_append,
    not_or] at h
  obtain ⟨⟨hbefore, hafter⟩, -⟩ := h
  have hother {bs : List α} (hbs : f a ∉ bs.map f) : bs.filter (fun b => f b = f a) = [] := by
    refine List.filter_eq_nil_iff.mpr fun b hb heq => hbs ?_
    rw [← of_decide_eq_true heq]
    exact List.mem_map_of_mem hb
  rw [List.filter_append, List.filter_cons_of_pos (by simp), hother hbefore, hother hafter,
    List.nil_append]

/-- The fields are different from each other and from those in `seen`. -/
theorem Assignment.violationsOfAll_eq_nil_iff (assignments : List Assignment)
    (seen : List String) :
    Assignment.violationsOfAll seen assignments = [] ↔
      ((assignments.map Assignment.field).Nodup ∧ ∀ a ∈ assignments, a.field ∉ seen) ∧
        ∀ a ∈ assignments, a.value.violations = [] := by
  induction assignments generalizing seen with
  | nil => simp [Assignment.violationsOfAll]
  | cons a assignments ih =>
    simp only [Assignment.violationsOfAll, List.append_eq_nil_iff, violationIf_eq_nil, ih,
      List.map_cons, List.nodup_cons, List.mem_map, List.mem_cons]
    grind

/-- The rule of assignments to the fields of a table, as one list of violations. -/
theorem setsFields_iff (table : String) (assignments : List Assignment) (v : Violation) :
    SetsFields table assignments ∧ (∀ a ∈ assignments, a.value.violations = []) ↔
      violationIf (table = "") .tableNameEmpty ++ violationIf (assignments.isEmpty = true) v ++
        Assignment.violationsOfAll [] assignments = [] := by
  simp only [List.append_eq_nil_iff, violationIf_eq_nil, List.isEmpty_iff,
    Assignment.violationsOfAll_eq_nil_iff]
  constructor
  · rintro ⟨⟨htable, hfields, hnodup⟩, hvalues⟩
    exact ⟨⟨htable, hfields⟩, ⟨hnodup, by simp⟩, hvalues⟩
  · rintro ⟨⟨htable, hfields⟩, ⟨hnodup, -⟩, hvalues⟩
    exact ⟨⟨htable, hfields, hnodup⟩, hvalues⟩

theorem Insert.violations_eq_nil_iff (i : Insert) :
    i.violations = [] ↔
      SetsFields i.table i.assignments ∧ ∀ a ∈ i.assignments, a.value.violations = [] :=
  (setsFields_iff i.table i.assignments _).symm

theorem sameMembers_eq_true_iff {xs ys : List String} :
    sameMembers xs ys = true ↔ ∀ f, f ∈ xs ↔ f ∈ ys := by
  simp only [sameMembers, Bool.and_eq_true, List.all_eq_true, List.contains_iff_mem]
  exact ⟨fun h f => ⟨h.1 f, h.2 f⟩, fun h => ⟨fun f => (h f).mp, fun f => (h f).mpr⟩⟩

theorem constantViolations_eq_nil_iff {i : Insert} :
    constantViolations i = [] ↔ ∀ a ∈ i.assignments, a.value.isLiteral = true := by
  simp [constantViolations, List.filter_eq_nil_iff]

theorem bulkRowViolations_eq_nil_iff (first : Insert) (rows : List Insert) (row : Nat) :
    bulkRowViolations first row rows = [] ↔
      (∀ i ∈ rows, first.IsRowAfter i) ∧
        ∀ i ∈ rows, ∀ a ∈ i.assignments, a.value.violations = [] := by
  induction rows generalizing row with
  | nil => simp [bulkRowViolations]
  | cons i rows ih =>
    have hrow : first.IsRowAfter i ↔ SetsFields i.table i.assignments ∧
        (i.namespaceName = first.namespaceName ∧ i.table = first.table) ∧
        (∀ f, f ∈ i.fields ↔ f ∈ first.fields) ∧ ∀ a ∈ i.assignments, a.value.isLiteral = true :=
      ⟨fun h => ⟨h.1, ⟨h.2, h.3⟩, h.4, h.5⟩, fun h => ⟨h.1, h.2.1.1, h.2.1.2, h.2.2.1, h.2.2.2⟩⟩
    simp only [bulkRowViolations, List.append_eq_nil_iff, violationIf_eq_nil, ih, hrow,
      List.forall_mem_cons, Insert.violations_eq_nil_iff, constantViolations_eq_nil_iff,
      ← sameMembers_eq_true_iff, Bool.not_eq_false, not_or, ne_eq, Classical.not_not]
    grind

/-- A statement has no violation exactly if it keeps its rule and its nodes have none. -/
theorem Statement.violations_eq_nil_iff (s : Statement) :
    s.violations = [] ↔ s.KeepsRule ∧ ∀ r ∈ s.roots, r.violations = [] := by
  cases s with
  | select q => simp [Statement.violations, Statement.KeepsRule, Statement.roots, Node.violations]
  | union u =>
    have hrule : u.KeepsRule ↔
        u.members ≠ [] ∧ ∀ m ∈ u.members, m.query.orderBy = [] ∧ m.query.page = none :=
      ⟨fun h => ⟨h.hasMembers, h.unordered⟩, fun h => ⟨h.1, h.2⟩⟩
    simp only [Statement.violations, Union.violations, Statement.KeepsRule, hrule,
      Statement.roots, List.append_eq_nil_iff, violationIf_eq_nil, List.isEmpty_iff,
      UnionMember.violationsOfAll_eq_nil_iff, List.forall_mem_map, Node.violations, and_assoc]
  | insert i =>
    rw [Statement.violations, Insert.violations_eq_nil_iff]
    simp only [Statement.KeepsRule, Statement.roots, List.forall_mem_map, Node.violations]
  | bulkInsert b =>
    obtain ⟨rows⟩ := b
    cases rows with
    | nil => simp [Statement.violations, BulkInsert.violations, Statement.KeepsRule,
        BulkInsert.KeepsRule]
    | cons first rest =>
      have hrule : BulkInsert.KeepsRule ⟨first :: rest⟩ ↔
          ∀ i ∈ first :: rest, first.IsRowAfter i := by
        simp [BulkInsert.KeepsRule]
      have hroots : (∀ r ∈ (Statement.bulkInsert ⟨first :: rest⟩).roots, r.violations = []) ↔
          ∀ i ∈ first :: rest, ∀ a ∈ i.assignments, a.value.violations = [] := by
        simp only [Statement.roots, List.forall_mem_flatMap, List.forall_mem_map, Node.violations]
      rw [Statement.violations, BulkInsert.violations, bulkRowViolations_eq_nil_iff, hroots,
        Statement.KeepsRule, hrule]
  | update u =>
    have hsplit : u.violations = [] ↔
        (SetsFields u.table u.assignments ∧ ∀ a ∈ u.assignments, a.value.violations = []) ∧
          u.filter.violations = [] := by
      rw [setsFields_iff, Update.violations, List.append_eq_nil_iff]
    rw [Statement.violations, hsplit]
    simp only [Statement.KeepsRule, Statement.roots, List.forall_mem_append, List.forall_mem_map,
      List.forall_mem_singleton, Node.violations, and_assoc]
  | delete x =>
    simp [Statement.violations, Delete.violations, Statement.KeepsRule, Statement.roots,
      Node.violations]

/-- The trees that a valid statement consists of are valid. -/
theorem Statement.violations_of_mem_roots {s : Statement} (h : s.violations = []) {r : Node}
    (hr : r ∈ s.roots) : r.violations = [] :=
  (s.violations_eq_nil_iff.mp h).2 r hr

/-- The trees in a valid statement are valid. -/
theorem Statement.violations_of_contains {s : Statement} (h : s.violations = []) {n : Node}
    (hn : s.Contains n) : n.violations = [] := by
  obtain ⟨r, hr, hn⟩ := hn
  exact Node.violations_of_contains hn (Statement.violations_of_mem_roots h hr)

/-- A statement is valid exactly if it keeps the rule of its kind and every node anywhere in it
keeps its own. -/
theorem Statement.validate_eq_ok_iff_keepsRule (s : Statement) :
    s.validate = .ok () ↔ s.KeepsRule ∧ ∀ n, s.Contains n → n.KeepsRule := by
  have hroots : (∀ r ∈ s.roots, r.violations = []) ↔ ∀ n, s.Contains n → n.KeepsRule := by
    simp only [Node.violations_eq_nil_iff_contains, Statement.Contains]
    exact ⟨fun h n ⟨r, hr, hn⟩ => h r hr n hn, fun h r hr n hn => h n ⟨r, hr, hn⟩⟩
  rw [Statement.validate_eq_ok_iff, Statement.violations_eq_nil_iff, hroots]

end SqlTree
