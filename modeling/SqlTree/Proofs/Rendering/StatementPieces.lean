import SqlTree.Proofs.Paging.ValidExpansion
import SqlTree.Proofs.Rendering.Features
import SqlTree.Proofs.Rendering.Pieces

/-!
# Tokens of statements, node by node

A statement adds plain tokens to those of the trees that it consists of, except that rows without a
row list are selected from a source that is there for that.

* `Statement.written`: the trees of a statement that are written;
* `Statement.Filled`: whether a statement writes no list without members.

Results:
* `Statement.composed_tokens_of_written`: the tokens of a filled statement have a composed property
  if those of the trees that it writes have it.
* `Statement.closed_tokens_of_written`: the same for a closed property and any statement.
* `Statement.obstacles_eq_flatMap`: the obstacles in a statement are those in the trees that it
  writes.
* `Statement.violations_of_mem_written`: the trees that a valid statement writes are valid, also
  with their pages expanded.
-/

namespace SqlTree

open Token

/-! ## Trees that are written -/

/-- The values that are written for the rows of a bulk insert. -/
def BulkInsert.values (b : BulkInsert) : List Expr :=
  match b.rows with
  | [] => []
  | first :: rest =>
    (first :: rest).flatMap fun row => row.valuesOf (first.assignments.map Assignment.field)

/-- The trees of a statement that are written. A bulk insert writes the values of each row in the
order of the first one. -/
def Statement.written : Statement → List Node
  | .bulkInsert b => b.values.map .expr
  | s => s.roots

variable {d : Dialect}

/-- The obstacles in a statement are those in the trees that it writes. -/
theorem Statement.obstacles_eq_flatMap (s : Statement) :
    s.obstacles d = s.written.flatMap fun n => (n.forDialect d).obstacles d := by
  cases s with
  | select q => simp [obstacles, written, roots, Node.forDialect_select, Node.obstacles]
  | union u =>
    simp [obstacles, written, roots, Node.forDialect_select, Node.obstacles, List.flatMap_map]
  | insert i =>
    simp only [obstacles, written, roots, List.flatMap_map, Node.forDialect_expr, Node.obstacles]
    rfl
  | bulkInsert b =>
    obtain ⟨rows⟩ := b
    cases rows with
    | nil => rfl
    | cons first rest =>
      simp only [obstacles, BulkInsert.obstacles, written, BulkInsert.values, List.flatMap_map,
        List.flatMap_assoc, Node.forDialect_expr, Node.obstacles]
      rfl
  | update u =>
    simp only [obstacles, written, roots, List.flatMap_append, List.flatMap_map,
      Node.forDialect_expr, Node.forDialect_condition, Node.obstacles, List.flatMap_cons,
      List.flatMap_nil, List.append_nil]
    rfl
  | delete x =>
    simp only [obstacles, written, roots, Node.forDialect_condition, Node.obstacles,
      List.flatMap_cons, List.flatMap_nil, List.append_nil]
    rfl

theorem Node.violations_forDialect {n : Node} (h : n.violations = []) :
    (n.forDialect d).violations = [] := by
  unfold Node.forDialect
  split
  · exact Node.violations_expandPages h
  · exact h

/-- The trees that a valid statement writes are valid, also with their pages expanded. -/
theorem Statement.violations_of_mem_written {s : Statement} (h : s.violations = []) {n : Node}
    (hn : n ∈ s.written) : (n.forDialect d).violations = [] := by
  refine Node.violations_forDialect ?_
  cases s with
  | bulkInsert b =>
    obtain ⟨rows⟩ := b
    cases rows with
    | nil => simp [written, BulkInsert.values] at hn
    | cons first rest =>
      obtain ⟨v, hv, rfl⟩ := List.mem_map.mp hn
      obtain ⟨i, hi, hv⟩ := List.mem_flatMap.mp hv
      rcases Insert.mem_assignments_of_mem_valuesOf hv with rfl | ⟨a, ha, rfl⟩
      · rfl
      · refine Statement.violations_of_mem_roots h ?_
        exact List.mem_flatMap.mpr ⟨i, hi, List.mem_map.mpr ⟨a, ha, rfl⟩⟩
  | _ => exact Statement.violations_of_mem_roots h hn

/-! ## Tokens -/

/-- A statement lists something wherever it has a list: the members of a union, and the fields that
are assigned. -/
def Statement.Filled : Statement → Prop
  | .union u => u.members ≠ []
  | .insert i => i.assignments ≠ []
  | .bulkInsert b => ∃ first rest, b.rows = first :: rest ∧ first.assignments ≠ []
  | .update u => u.assignments ≠ []
  | .select _ | .delete _ => True

section Composed

variable {Q : List Token → Prop} (hQ : Composed Q) (houter : ∀ k ∈ Keyword.outer, Leads Q k)

include hQ

theorem composed_rowTokens {values : List Expr} (h : ∀ v ∈ values, Q (valueTokens d v))
    (hne : Q [] ∨ values ≠ []) : Q (rowTokens d values) :=
  hQ.parens (hQ.commaList (List.forall_mem_map.mpr h) (hne.imp_right (by simp)))

theorem composed_filterWords {c : Condition}
    (h : c.isEmpty = false → Q ((c.forDialect d).tokens d)) : Led Q (filterWords d c) :=
  .phrase (hQ.led rfl) h

theorem composed_selectRowWords {values : List Expr} (hdual : Q [keyword .DUAL])
    (h : ∀ v ∈ values, Q (valueTokens d v)) (hne : Q [] ∨ values ≠ []) :
    Led Q (selectRowWords d values) := by
  have hvalues : Q (commaList (values.map (valueTokens d))) :=
    hQ.commaList (List.forall_mem_map.mpr h) (hne.imp_right (by simp))
  exact .lead (hQ.led rfl) (List.cons_ne_nil _ _) (.word hvalues (.pair (hQ.led rfl) hdual))

theorem UnionMember.composed_tokens {m : UnionMember}
    (h : Q ((m.query.forDialect d).tokens d)) : Q (m.tokens d) := by
  unfold UnionMember.tokens
  split
  · exact hQ.parens h
  · exact h

include houter

theorem composed_insertWords (table : String) (namespaceName : Option String)
    {fields : List String} (hne : Q [] ∨ fields ≠ []) :
    Led Q (insertWords table namespaceName fields) := by
  have hfields : Q (fieldTokens fields) :=
    hQ.parens (hQ.commaList (List.forall_mem_map.mpr fun f _ => hQ.part rfl)
      (hne.imp_right (by simp)))
  refine .lead (houter .INSERT (by decide)) (List.cons_ne_nil _ _) ?_
  refine .lead (houter .INTO (by decide)) (List.cons_ne_nil _ _) ?_
  exact .word (hQ.part rfl) (.word hfields .nil)

/-- The rows of a bulk insert are a list, or each of them is selected. -/
theorem composed_rowsWords {rows : List (List Expr)}
    (hdual : d.hasRowLists = false → Q [keyword .DUAL])
    (h : ∀ row ∈ rows, ∀ v ∈ row, Q (valueTokens d v)) (hne : ∀ row ∈ rows, Q [] ∨ row ≠ []) :
    Led Q (rowsWords d rows) := by
  cases rows with
  | nil => exact .nil
  | cons row rows =>
    rw [rowsWords]
    split
    · have hlist : Q (commaList ((row :: rows).map (rowTokens d))) := by
        refine hQ.commaList (List.forall_mem_map.mpr fun r hr => ?_) (.inr (by simp))
        exact composed_rowTokens hQ (h r hr) (hne r hr)
      exact .pair (houter .VALUES (by decide)) hlist
    · rename_i hlists
      have hdual : Q [keyword .DUAL] := hdual (by simpa using hlists)
      have hrow : ∀ r ∈ row :: rows, Led Q (selectRowWords d r) := fun r hr =>
        composed_selectRowWords hQ hdual (h r hr) (hne r hr)
      obtain ⟨hfirst, hrest⟩ := List.forall_mem_cons.mp hrow
      refine hfirst.append (.flatMap fun r hr => ?_)
      refine .lead (houter .UNION (by decide)) (List.cons_ne_nil _ _) ?_
      exact .lead (houter .ALL (by decide)) (List.cons_ne_nil _ _) (hrest r hr)

theorem Union.composed_tokens {u : Union} (hne : Q [] ∨ u.members ≠ [])
    (h : ∀ m ∈ u.members, Q ((m.query.forDialect d).tokens d)) : Q (u.tokens d) := by
  obtain ⟨members⟩ := u
  cases members with
  | nil => exact hne.resolve_right fun hne => hne rfl
  | cons m ms =>
    have hmember : ∀ m' ∈ m :: ms, Q (m'.tokens d) := fun m' hm' =>
      UnionMember.composed_tokens hQ (h m' hm')
    obtain ⟨hm, hms⟩ := List.forall_mem_cons.mp hmember
    refine hQ.words (.word hm (.flatMap fun m' hm' => ?_)) (.inr (List.cons_ne_nil _ _))
    refine .lead (houter .UNION (by decide)) (by simp) ?_
    exact .wordIf (houter .ALL (by decide)) (List.cons_ne_nil _ _) (.word (hms m' hm') .nil)

/-- The tokens of a filled statement have a composed property if the tokens of the trees that it
writes have it, the keywords that only statements have may lead what has it and, where rows are
selected, the source that is there for that has it. An empty condition by itself is not written. -/
theorem Statement.composed_tokens_of_written {s : Statement} (hfilled : Q [] ∨ s.Filled)
    (hdual : d.hasRowLists = false → Q [keyword .DUAL])
    (hwritten : ∀ n ∈ s.written, (∀ c, n = .condition c → c.isEmpty = false) →
      (n.forDialect d).TokensHave d Q) : Q (s.tokens d) := by
  have hvalue : ∀ e, Node.expr e ∈ s.written → Q (valueTokens d e) := by
    intro e he
    have htokens := hwritten _ he nofun
    rwa [Node.forDialect_expr] at htokens
  have hfilter : ∀ c, Node.condition c ∈ s.written → Led Q (filterWords d c) := by
    intro c hc
    refine composed_filterWords hQ fun hempty => ?_
    have htokens := hwritten _ hc fun c' hc' => Node.condition.inj hc' ▸ hempty
    rwa [Node.forDialect_condition] at htokens
  have hquery : ∀ q, Node.select q ∈ s.written → Q ((q.forDialect d).tokens d) := by
    intro q hq
    have htokens := hwritten _ hq nofun
    rwa [Node.forDialect_select] at htokens
  cases s with
  | select q => exact hquery q List.mem_cons_self
  | union u =>
    refine Union.composed_tokens hQ houter hfilled fun m hm => ?_
    exact hquery m.query (List.mem_map.mpr ⟨m, hm, rfl⟩)
  | insert i =>
    have hfields : Q [] ∨ i.assignments.map Assignment.field ≠ [] :=
      hfilled.imp_right fun h => mt List.map_eq_nil_iff.mp h
    have hrow : Q (rowTokens d (i.assignments.map Assignment.value)) := by
      refine composed_rowTokens hQ (List.forall_mem_map.mpr fun a ha => ?_) ?_
      · exact hvalue a.value (List.mem_map.mpr ⟨a, ha, rfl⟩)
      · exact hfilled.imp_right fun h => mt List.map_eq_nil_iff.mp h
    refine hQ.words (.append ?_ ?_) (.inr (by simp))
    · exact composed_insertWords hQ houter _ _ hfields
    · exact .pair (houter .VALUES (by decide)) hrow
  | bulkInsert b =>
    obtain ⟨rows⟩ := b
    cases rows with
    | nil => exact hfilled.resolve_right fun ⟨_, _, hrows, _⟩ => List.cons_ne_nil _ _ hrows.symm
    | cons first rest =>
      have hassigned : Q [] ∨ first.assignments.map Assignment.field ≠ [] := by
        refine hfilled.imp_right fun ⟨_, _, hrows, hne⟩ => mt List.map_eq_nil_iff.mp ?_
        rwa [(List.cons_eq_cons.mp hrows).1]
      have hrows : ∀ row ∈ (first :: rest).map
          (fun i => i.valuesOf (first.assignments.map Assignment.field)),
          ∀ v ∈ row, Q (valueTokens d v) :=
        List.forall_mem_map.mpr fun i hi v hv =>
          hvalue v (List.mem_map_of_mem (List.mem_flatMap.mpr ⟨i, hi, hv⟩))
      refine hQ.words (.append ?_ ?_) (.inr (by simp [insertWords]))
      · exact composed_insertWords hQ houter _ _ hassigned
      · refine composed_rowsWords hQ houter hdual hrows (List.forall_mem_map.mpr fun i _ => ?_)
        exact hassigned.imp_right fun hne => mt List.map_eq_nil_iff.mp hne
  | update u =>
    have hassignment : ∀ a ∈ u.assignments, Q (a.tokens d) := by
      intro a ha
      have hv : Q (valueTokens d a.value) :=
        hvalue a.value (List.mem_append_left _ (List.mem_map.mpr ⟨a, ha, rfl⟩))
      exact hQ.words (.word (hQ.part rfl) (.word (hQ.part rfl) (.word hv .nil)))
        (.inr (List.cons_ne_nil _ _))
    have hlist : Q (commaList (u.assignments.map (Assignment.tokens d))) :=
      hQ.commaList (List.forall_mem_map.mpr hassignment)
        (hfilled.imp_right fun h => mt List.map_eq_nil_iff.mp h)
    refine hQ.words (.append ?_ (hfilter u.filter (by simp [written, roots]))) (.inr (by simp))
    refine .lead (houter .UPDATE (by decide)) (List.cons_ne_nil _ _) ?_
    exact .word (hQ.part rfl) (.pair (houter .SET (by decide)) hlist)
  | delete x =>
    refine hQ.words (.append ?_ (hfilter x.filter List.mem_cons_self)) (.inr (by simp))
    refine .lead (houter .DELETE (by decide)) (List.cons_ne_nil _ _) ?_
    exact .pair (hQ.led rfl) (hQ.part rfl)

end Composed

/-- The tokens of a statement have a closed property if the tokens of the trees that it writes have
it and, where rows are selected, the source that is there for that. -/
theorem Statement.closed_tokens_of_written {Q : List Token → Prop} (hQ : Closed Q) {s : Statement}
    (hdual : d.hasRowLists = false → Q [keyword .DUAL])
    (hwritten : ∀ n ∈ s.written, (n.forDialect d).TokensHave d Q) : Q (s.tokens d) := by
  have houter : ∀ k ∈ Keyword.outer, Leads Q k := by
    intro k hk
    apply hQ.leads
    apply hQ.plain
    revert k
    decide
  exact composed_tokens_of_written hQ.composed houter (.inl hQ.nil) hdual fun n hn _ =>
    hwritten n hn

end SqlTree
