import SqlTree.Proofs.Conditions.RenderedConditions
import SqlTree.Syntax.Build

/-!
# Conditions in rows

A database computes expressions and conditions in a row. The columns and the comparisons are left
open: a comparison of any two values, missing or not, may be true, false or neither. What is fixed
is the meaning of missing values, of case expressions and of connectives.

* `Evaluation`: how columns are read and values are compared;
* `Evaluation.value`, `Evaluation.truth`, `Evaluation.truth?`: the value of an expression, and the
  truth of a predicate and of a condition in a row;
* `Evaluation.selected`: the rows that a condition selects;
* `Evaluation.aggregate?`: an aggregate over the values that are not missing.

Results:
* `Evaluation.truth?_eq_value?`: the truth of a condition is the value that is read from its text.
* `Evaluation.truth?_all_eq_yes_iff`: tests under AND hold if there are any and each of them holds.
* `Evaluation.keeps_all_iff`: the rows that they select.
* `Evaluation.values_caseWhen`: a case expression without an alternative has the values of its
  result in the rows where its condition holds.
-/

namespace SqlTree

/-- How a database computes in rows. A missing value is a null. -/
structure Evaluation (ρ V : Type) where
  /-- The value of an expression that is neither null nor a case expression. -/
  read : Expr → ρ → Option V
  /-- The truth of a comparison, also if a value is missing. -/
  compare : CompareOp → Option V → Option V → Truth
  /-- The truth of a predicate that is neither a comparison nor a test for null. -/
  test : Predicate → ρ → Truth

namespace Evaluation

variable {ρ V : Type} (M : Evaluation ρ V) (row : ρ)

/-! ## Expressions and conditions -/

mutual

/-- The value of an expression in a row. A case expression has the value of its first arm of which
the condition holds. -/
def value : Expr → Option V
  | .null => none
  | .case arms none => (firstResult arms).getD none
  | .case arms (some e) => (firstResult arms).getD (value e)
  | e => M.read e row

/-- The value of the first arm of which the condition holds. -/
def firstResult : List CaseArm → Option (Option V)
  | [] => none
  | ⟨condition, result⟩ :: arms =>
    if truth? condition = some .yes then some (value result) else firstResult arms

/-- The truth of a predicate in a row. -/
def truth : Predicate → Truth
  | .compare left op right => M.compare op (value left) (value right)
  | .isNull e negated => if (value e).isNone = negated then .no else .yes
  | p => M.test p row

/-- The truths of the predicates of a list. -/
def truths : List Predicate → List Truth
  | [] => []
  | p :: ps => truth p :: truths ps

/-- The truth of a condition in a row, if it has a predicate. -/
def truth? : Condition → Option Truth
  | ⟨connective, predicates, groups⟩ =>
    connective.combine? (truths predicates ++ truthsOfGroups groups)

/-- The truths of the conditions of a list that have a predicate. -/
def truthsOfGroups : List Condition → List Truth
  | [] => []
  | g :: gs => (truth? g).toList ++ truthsOfGroups gs

end

theorem truths_eq_map (ps : List Predicate) : M.truths row ps = ps.map (M.truth row) := by
  induction ps with
  | nil => rfl
  | cons p ps ih => rw [truths, ih, List.map_cons]

theorem map_zipIdx_fst {α β : Type} (f : α → β) (l : List α) (n : Nat) :
    (l.zipIdx n).map (fun p => f p.1) = l.map f := by
  show (l.zipIdx n).map (f ∘ Prod.fst) = _
  rw [← List.map_map, List.zipIdx_map_fst]

mutual

/-- The truth of a condition is the value that is read from its text when its terms have their
truths. -/
theorem truth?_eq_value? :
    ∀ (c : Condition) (start : Nat),
      M.truth? row c = c.value? (fun p => M.truth row p.1) start
  | ⟨connective, predicates, groups⟩, start => by
    rw [truth?, Condition.value?, truths_eq_map, map_zipIdx_fst, truthsOfGroups_eq_valuesOfAll]

theorem truthsOfGroups_eq_valuesOfAll :
    ∀ (gs : List Condition) (start : Nat),
      M.truthsOfGroups row gs = Condition.valuesOfAll (fun p => M.truth row p.1) start gs
  | [], _ => rfl
  | g :: gs, start => by
    rw [truthsOfGroups, Condition.valuesOfAll, truth?_eq_value? g start,
      truthsOfGroups_eq_valuesOfAll gs]

end

/-! ## Tests under AND -/

theorem foldl_and_eq_yes_iff {t : Truth} {ts : List Truth} :
    ts.foldl Truth.and t = .yes ↔ t = .yes ∧ ∀ u ∈ ts, u = .yes := by
  induction ts generalizing t with
  | nil => simp
  | cons u us ih =>
    have hand : t.and u = .yes ↔ t = .yes ∧ u = .yes := by cases t <;> cases u <;> decide
    rw [List.foldl_cons, ih, hand, List.forall_mem_cons, and_assoc]

theorem truth?_all (ps : List Predicate) :
    M.truth? row (.all ps) = Connective.and.combine? (ps.map (M.truth row)) := by
  rw [Condition.all, truth?, truths_eq_map, truthsOfGroups, List.append_nil]

theorem truth?_all_cons (p : Predicate) (ps : List Predicate) :
    ∃ t, M.truth? row (.all (p :: ps)) = some t ∧
      (t = .yes ↔ ∀ q ∈ p :: ps, M.truth row q = .yes) := by
  refine ⟨_, by rw [truth?_all, List.map_cons, Connective.combine?], ?_⟩
  rw [Connective.combine, foldl_and_eq_yes_iff, List.forall_mem_map, List.forall_mem_cons]

/-- Tests under AND hold if there are any and each of them holds. -/
theorem truth?_all_eq_yes_iff {ps : List Predicate} :
    M.truth? row (.all ps) = some .yes ↔ ps ≠ [] ∧ ∀ p ∈ ps, M.truth row p = .yes := by
  cases ps with
  | nil => simp [truth?_all, Connective.combine?]
  | cons p ps =>
    obtain ⟨t, ht, hyes⟩ := M.truth?_all_cons row p ps
    rw [ht, Option.some_inj, hyes]
    simp

/-! ## Rows -/

/-- Whether a condition keeps a row: it holds, or it has no predicate. -/
def keeps (c : Condition) : Bool := (M.truth? row c).all (· = .yes)

/-- The rows that a condition selects. -/
def selected (c : Condition) (rows : List ρ) : List ρ := rows.filter fun row => M.keeps row c

/-- Tests under AND keep the rows in which each of them holds. -/
theorem keeps_all_iff {ps : List Predicate} :
    M.keeps row (.all ps) = true ↔ ∀ p ∈ ps, M.truth row p = .yes := by
  cases ps with
  | nil => simp [keeps, truth?_all, Connective.combine?]
  | cons p ps =>
    obtain ⟨t, ht, hyes⟩ := M.truth?_all_cons row p ps
    rw [keeps, ht, Option.all_some, decide_eq_true_iff, hyes]

/-! ## Aggregates -/

/-- The values of an expression in rows where it has one. -/
def values (rows : List ρ) (e : Expr) : List V := rows.filterMap fun row => M.value row e

/-- The value of an aggregate over rows, where `aggregate` sums up the values that are not missing.
Grouping is none of them, as it looks at the rows themselves. -/
def aggregate? {β : Type} (aggregate : AggregateFunction → List V → β) (rows : List ρ) :
    Expr → Option β
  | .aggregate f (some arg) false =>
    if f = .grouping then none else some (aggregate f (M.values rows arg))
  | _ => none

/-- A case expression of one arm has the values of its result in the rows where its condition
holds. -/
theorem values_caseWhen (rows : List ρ) (c : Condition) (e : Expr) :
    M.values rows (.case [⟨c, e⟩] (some .null)) =
      M.values (rows.filter fun row => M.truth? row c = some .yes) e := by
  rw [values, values, List.filterMap_filter]
  refine List.filterMap_congr fun row _ => ?_
  rw [value, firstResult, firstResult, value]
  by_cases h : M.truth? row c = some .yes
  · simp [h]
  · simp [h]

end Evaluation

end SqlTree
