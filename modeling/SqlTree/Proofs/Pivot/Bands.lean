import Mathlib.Data.Int.Order.Basic
import Mathlib.Data.List.Perm.Basic
import Mathlib.Order.Lattice
import SqlTree.Proofs.Conditions.Evaluation
import SqlTree.Pivot.Basic
import SqlTree.Token.Clause

/-!
# Bands of values

Bounds in increasing order cut the values of a field into bands: those before the first bound, those
from each bound on and before the next, and those from the last bound on. A value on a bound is the
first one of its band. Where comparisons follow an order, a value is in one band, and what is
missing is in none.

* `Token.relation?`: what the symbol of a comparison says about two values in order;
* `Evaluation.FollowsOrder`: a database whose comparisons say what their symbols do;
* `PivotMatch.bands`: the bands between bounds.

Results:
* `Evaluation.condition_range_eq_yes_iff`: the condition of a range holds in the rows where the
  field has a value between its bounds.
* `PivotMatch.countP_bandsFrom`: a value is in one band if it is not before the first of them.
* `PivotMatch.counted_once`: the columns for the bands count each row with a value once.
-/

namespace SqlTree

/-! ## Comparisons in order -/

section

variable {ρ V : Type} [LinearOrder V]

/-- What the symbol of a comparison says about two values. -/
def Token.relation? : Token → Option (V → V → Bool)
  | .symbol .equal => some fun a b => a = b
  | .symbol .notEqual => some fun a b => a ≠ b
  | .symbol .less => some fun a b => a < b
  | .symbol .lessOrEqual => some fun a b => a ≤ b
  | .symbol .greater => some fun a b => a > b
  | .symbol .greaterOrEqual => some fun a b => a ≥ b
  | _ => none

namespace Evaluation

/-- The comparisons with a symbol say what it says, and nothing if a value is missing. -/
structure FollowsOrder (M : Evaluation ρ V) : Prop where
  compare_some : ∀ {op : CompareOp} {r : V → V → Bool}, op.token.relation? = some r → ∀ a b,
    M.compare op (some a) (some b) = if r a b then .yes else .no
  compare_missing : ∀ {op : CompareOp} {r : V → V → Bool}, op.token.relation? = some r → ∀ a b,
    a = none ∨ b = none → M.compare op a b = .unknown

theorem FollowsOrder.compare_eq_yes_iff {M : Evaluation ρ V} (hM : M.FollowsOrder) {op : CompareOp}
    {r : V → V → Bool} (hr : op.token.relation? = some r) {a : Option V} {b : V} :
    M.compare op a (some b) = .yes ↔ ∃ x ∈ a, r x b = true := by
  cases a with
  | none => simp [hM.compare_missing hr]
  | some x => simp [hM.compare_some hr]

/-- A database with comparisons by an order. -/
def ofOrder (read : Expr → ρ → Option V) : Evaluation ρ V where
  read := read
  compare op a b :=
    match (op.token.relation? : Option (V → V → Bool)), a, b with
    | some r, some a, some b => if r a b then .yes else .no
    | _, _, _ => .unknown
  test _ _ := .unknown

theorem followsOrder_ofOrder (read : Expr → ρ → Option V) : (ofOrder read).FollowsOrder where
  compare_some hr a b := by simp [ofOrder, hr]
  compare_missing hr a b h := by
    rcases h with rfl | rfl
    · simp [ofOrder, hr]
    · cases a <;> simp [ofOrder, hr]

end Evaluation

/-! ## Ranges -/

namespace PivotMatch

/-- A value is not before the low bound, and before the high one. -/
def Between (denote : Constant → V) (low high : Option Constant) (x : V) : Prop :=
  (∀ c ∈ low, denote c ≤ x) ∧ ∀ c ∈ high, x < denote c

/-- The ranges between a low bound and the bounds of a list, and from the last of them on. -/
def bandsFrom (low : Option Constant) : List Constant → List PivotMatch
  | [] => [.range low none]
  | b :: bounds => .range low (some b) :: bandsFrom (some b) bounds

/-- The bands between bounds. The first one and the last one have no end. -/
def bands (bounds : List Constant) : List PivotMatch := bandsFrom none bounds

end PivotMatch

namespace Evaluation

open PivotMatch

variable {M : Evaluation ρ V} {denote : Constant → V} {row : ρ} {field : String}

/-- A test against a bound compares the value of the field with what the bound stands for. -/
theorem truth_compare_eq_yes_iff (hM : M.FollowsOrder) {op : CompareOp} {r : V → V → Bool}
    (hr : op.token.relation? = some r) {c : Constant}
    (hc : M.value row (.constant c) = some (denote c)) :
    M.truth row (.compare (.column field) op (.constant c)) = .yes ↔
      ∃ x ∈ M.value row (.column field), r x (denote c) = true := by
  rw [Evaluation.truth, hc, hM.compare_eq_yes_iff hr]

/-- The condition of a range with a bound holds in the rows where the field has a value between its
bounds. -/
theorem condition_range_eq_yes_iff (hM : M.FollowsOrder) {low high : Option Constant}
    (hbound : (range low high).bounds ≠ [])
    (hread : ∀ c ∈ (range low high).bounds, M.value row (.constant c) = some (denote c)) :
    M.truth? row ((range low high).condition field) = some .yes ↔
      ∃ x ∈ M.value row (.column field), Between denote low high x := by
  rw [PivotMatch.bounds, List.forall_mem_append] at hread
  have htests : (∀ p ∈ (range low high).predicates field, M.truth row p = .yes) ↔
      (∀ c ∈ low, ∃ x ∈ M.value row (.column field), denote c ≤ x) ∧
        ∀ c ∈ high, ∃ x ∈ M.value row (.column field), x < denote c := by
    rw [PivotMatch.predicates, List.forall_mem_append, List.forall_mem_map, List.forall_mem_map]
    simp only [Option.mem_toList] at hread ⊢
    refine and_congr (forall₂_congr fun c hc => ?_) (forall₂_congr fun c hc => ?_)
    · rw [truth_compare_eq_yes_iff hM rfl (hread.1 c hc)]
      simp
    · rw [truth_compare_eq_yes_iff hM rfl (hread.2 c hc)]
      simp
  have hne : (range low high).predicates field ≠ [] := by
    simpa [PivotMatch.predicates, PivotMatch.bounds] using hbound
  rw [PivotMatch.condition, truth?_all_eq_yes_iff, and_iff_right hne, htests]
  cases M.value row (.column field) with
  | none =>
    cases low with
    | some _ => simp
    | none =>
      cases high with
      | some _ => simp
      | none => contradiction
  | some x => simp [Between]

end Evaluation

/-! ## Counting -/

namespace PivotMatch

open Evaluation

variable {M : Evaluation ρ V} {denote : Constant → V} {field : String}

/-- A band is a range with a bound, and its bounds are among those of the bands. -/
theorem exists_range_of_mem_bandsFrom (low : Option Constant) {bounds : List Constant}
    (hbounds : low.toList ++ bounds ≠ []) {m : PivotMatch} (hm : m ∈ bandsFrom low bounds) :
    ∃ l h, m = .range l h ∧ m.bounds ≠ [] ∧ ∀ c ∈ m.bounds, c ∈ low.toList ++ bounds := by
  induction bounds generalizing low with
  | nil =>
    obtain rfl := List.mem_singleton.mp hm
    exact ⟨low, none, rfl, by simpa [PivotMatch.bounds] using hbounds, by simp [PivotMatch.bounds]⟩
  | cons b bounds ih =>
    rcases List.mem_cons.mp hm with rfl | hm
    · refine ⟨low, some b, rfl, by simp [PivotMatch.bounds], fun c hc => ?_⟩
      rcases List.mem_append.mp hc with hc | hc
      · exact List.mem_append_left _ hc
      · obtain rfl : c = b := by simpa using hc
        exact List.mem_append_right _ List.mem_cons_self
    · obtain ⟨l, h, rfl, hne, hsubset⟩ := ih (some b) (by simp) hm
      exact ⟨l, h, rfl, hne, fun c hc => List.mem_append_right _ (hsubset c hc)⟩

/-- Between increasing bounds, a value that is not before the first one is in one band, and other
values are in none. -/
theorem countP_bandsFrom (hM : M.FollowsOrder) {row : ρ} {x : V}
    (hx : M.value row (.column field) = some x) (low : Option Constant) {bounds : List Constant}
    (hbounds : low.toList ++ bounds ≠ [])
    (hread : ∀ c ∈ low.toList ++ bounds, M.value row (.constant c) = some (denote c))
    (hsorted : (low.toList ++ bounds).Pairwise (denote · < denote ·)) :
    ((bandsFrom low bounds).countP fun m => M.truth? row (m.condition field) = some .yes) =
      if ∀ c ∈ low, denote c ≤ x then 1 else 0 := by
  induction bounds generalizing low with
  | nil =>
    rw [List.append_nil] at hbounds hread
    have hlast : M.truth? row ((range low none).condition field) = some .yes ↔
        ∀ c ∈ low, denote c ≤ x := by
      rw [condition_range_eq_yes_iff hM (by simpa [PivotMatch.bounds] using hbounds)
        (by simpa [PivotMatch.bounds] using hread), hx]
      simp [Between]
    rw [bandsFrom, List.countP_singleton]
    simp [hlast]
  | cons b bounds ih =>
    obtain ⟨-, hrest, hlow⟩ := List.pairwise_append.mp hsorted
    obtain ⟨hreadLow, hreadRest⟩ := List.forall_mem_append.mp hread
    have hfirst : M.truth? row ((range low (some b)).condition field) = some .yes ↔
        (∀ c ∈ low, denote c ≤ x) ∧ x < denote b := by
      rw [condition_range_eq_yes_iff hM (by simp [PivotMatch.bounds])
        (List.forall_mem_append.mpr ⟨hreadLow, by simpa using hreadRest b List.mem_cons_self⟩), hx]
      simp [Between]
    rw [bandsFrom, List.countP_cons, ih (some b) (by simp) hreadRest hrest]
    simp only [hfirst, decide_eq_true_eq, Option.mem_def, Option.some.injEq, forall_eq']
    -- a value on the bound is in the next band
    rcases lt_or_ge x (denote b) with hlt | hge
    · simp [hlt, not_le_of_gt hlt]
    · have hle : ∀ c, low = some c → denote c ≤ x := fun c hc =>
        le_trans (le_of_lt (hlow c (Option.mem_toList.mpr hc) b List.mem_cons_self)) hge
      rw [if_pos hge, if_neg fun h => not_le_of_gt h.2 hge, if_pos hle]

/-- A missing value is in no band. -/
theorem condition_ne_yes_of_missing (hM : M.FollowsOrder) {row : ρ} {bounds : List Constant}
    (hbounds : bounds ≠ []) (hread : ∀ c ∈ bounds, M.value row (.constant c) = some (denote c))
    (hmissing : M.value row (.column field) = none) :
    ∀ m ∈ bands bounds, M.truth? row (m.condition field) ≠ some .yes := by
  intro m hm
  obtain ⟨l, h, rfl, hne, hsubset⟩ := exists_range_of_mem_bandsFrom none hbounds hm
  rw [ne_eq, condition_range_eq_yes_iff hM hne fun c hc => hread c (hsubset c hc), hmissing]
  simp

end PivotMatch

end

/-! ## Columns -/

theorem flatMap_ite_singleton {α β : Type} (q : β → Bool) (a : α) (ps : List β) :
    (ps.flatMap fun p => if q p then [a] else []) = List.replicate (ps.countP q) a := by
  induction ps with
  | nil => rfl
  | cons p ps ih =>
    rw [List.flatMap_cons, ih, List.countP_cons]
    cases q p with
    | false => rfl
    | true => rfl

/-- Where each element has one of some properties or none, the elements with each of them are
together those with one. -/
theorem flatMap_filter_perm {α β : Type} {holds : β → α → Bool} {keep : α → Bool} {ps : List β}
    {l : List α} (h : ∀ a ∈ l, (ps.countP fun p => holds p a) = if keep a then 1 else 0) :
    (ps.flatMap fun p => l.filter (holds p)).Perm (l.filter keep) := by
  induction l with
  | nil => simp
  | cons a l ih =>
    obtain ⟨ha, hl⟩ := List.forall_mem_cons.mp h
    have hcons (q : α → Bool) :
        (a :: l).filter q = (if q a then [a] else []) ++ l.filter q := by
      cases hq : q a <;> simp [hq]
    have hfirst : (ps.flatMap fun p => if holds p a then [a] else []) =
        if keep a then [a] else [] := by
      rw [flatMap_ite_singleton (fun p => holds p a), ha]
      cases keep a <;> rfl
    rw [hcons keep, ← hfirst]
    simp only [hcons]
    exact (List.flatMap_append_perm ps _ _).symm.trans ((ih hl).append_left _)

variable {ρ V : Type}

/-- The values that an aggregate is over. -/
def Evaluation.argumentValues (M : Evaluation ρ V) (rows : List ρ) : Expr → List V
  | .aggregate _ (some arg) _ => M.values rows arg
  | _ => []

namespace PivotTable

/-- The columns for the values of a field stand next to each other in the query for a table. -/
theorem cells_infix_items {p : PivotTable} {c : PivotColumn} (hc : c ∈ p.columns) :
    c.values.map (p.cell c.field) <:+: p.crossTab.items := by
  obtain ⟨front, back, hsplit⟩ := List.append_of_mem hc
  refine ⟨(Expr.column p.rowField).item ::
    (front.flatMap fun c => c.values.map (p.cell c.field)),
    (back.flatMap fun c => c.values.map (p.cell c.field)) ++ p.totalName.toList.map p.total, ?_⟩
  simp [crossTab, values, hsplit, List.map_flatMap, Function.comp_def]

/-- If the condition of one column holds in each row that has the pivoted field, and that of none in
others, the columns are over the values of the value field in the rows that have it. -/
theorem argumentValues_cells_perm (M : Evaluation ρ V) (p : PivotTable) {field : String}
    {values : List PivotValue} {rows : List ρ}
    (h : ∀ row ∈ rows,
      (values.countP fun v => M.truth? row (v.selects.condition field) = some .yes) =
        if (M.value row (.column field)).isSome then 1 else 0) :
    ((values.map (p.cell field)).flatMap fun i => M.argumentValues rows i.expr).Perm
      (M.values (rows.filter fun row => (M.value row (.column field)).isSome)
        (.column p.valueField)) := by
  have hcells : ((values.map (p.cell field)).flatMap fun i => M.argumentValues rows i.expr) =
      (values.flatMap fun v => rows.filter fun row =>
        M.truth? row (v.selects.condition field) = some .yes).filterMap
          fun row => M.value row (.column p.valueField) := by
    rw [List.flatMap_map, List.filterMap_flatMap]
    refine List.flatMap_congr fun v _ => ?_
    exact M.values_caseWhen rows (v.selects.condition field) (.column p.valueField)
  rw [hcells]
  exact (flatMap_filter_perm h).filterMap _

end PivotTable

namespace PivotMatch

/-- Bounds that increase, in an order that comparisons follow, cut the values of a field into bands:
in a row where the field has a value, the condition of one band holds, and in a row where it is
missing, none does. The columns for the bands stand next to each other in the query for a table, and
over any rows they sum up, all together, the values in the rows where the field has a value. -/
theorem counted_once [LinearOrder V] {M : Evaluation ρ V} (hM : M.FollowsOrder)
    {denote : Constant → V} {bounds : List Constant} (hbounds : bounds ≠ [])
    (hread : ∀ c ∈ bounds, ∀ row, M.value row (.constant c) = some (denote c))
    (hsorted : bounds.Pairwise (denote · < denote ·)) (field : String) :
    (∀ row, (M.value row (.column field)).isSome = true →
      ((bands bounds).countP fun m => M.truth? row (m.condition field) = some .yes) = 1) ∧
    (∀ row, M.value row (.column field) = none →
      ∀ m ∈ bands bounds, M.truth? row (m.condition field) ≠ some .yes) ∧
    ∀ (p : PivotTable), ∀ c ∈ p.columns, c.field = field →
      c.values.map PivotValue.selects = bands bounds →
      c.values.map (p.cell field) <:+: p.crossTab.items ∧
      ∀ rows, ((c.values.map (p.cell field)).flatMap fun i => M.argumentValues rows i.expr).Perm
        (M.values (rows.filter fun row => (M.value row (.column field)).isSome)
          (.column p.valueField)) := by
  have hpresent (row : ρ) (h : (M.value row (.column field)).isSome = true) :
      ((bands bounds).countP fun m => M.truth? row (m.condition field) = some .yes) = 1 := by
    obtain ⟨x, hx⟩ := Option.isSome_iff_exists.mp h
    have hcount := countP_bandsFrom hM hx none hbounds (fun c hc => hread c hc row) hsorted
    rwa [if_pos (by simp)] at hcount
  have hmissing (row : ρ) (h : M.value row (.column field) = none) :
      ∀ m ∈ bands bounds, M.truth? row (m.condition field) ≠ some .yes :=
    condition_ne_yes_of_missing hM hbounds (fun c hc => hread c hc row) h
  refine ⟨hpresent, hmissing, fun p c hc hfield hselects => ⟨?_, fun rows => ?_⟩⟩
  · exact hfield ▸ PivotTable.cells_infix_items hc
  · refine p.argumentValues_cells_perm M fun row _ => ?_
    have hcount : (c.values.countP fun v =>
        M.truth? row (v.selects.condition field) = some .yes) =
        (bands bounds).countP fun m => M.truth? row (m.condition field) = some .yes := by
      rw [← hselects, List.countP_map]
      rfl
    rw [hcount]
    cases hvalue : M.value row (.column field) with
    | none => simpa using hmissing row hvalue
    | some x => exact hpresent row (by rw [hvalue]; rfl)

/-- What a constant says about an age. -/
def ageOf : Constant → Int
  | .number (.int n) => n.toInt
  | _ => 0

/-- Patients by age and number. The age may be missing. -/
def agesEvaluation : Evaluation (Option Int × Int) Int :=
  .ofOrder fun e row =>
    match e with
    | .field _ "age" => row.1
    | .field _ "id" => some row.2
    | .constant c => some (ageOf c)
    | _ => none

/-- The ages that cut bands. -/
def ageBounds : List Constant := [.number (.int 18), .number (.int 65)]

/-- Patients of each ward by age. -/
def patientAges : PivotTable :=
  { base := .table "patients", function := .count, valueField := "id", rowField := "ward"
    columns :=
      [⟨"age", .number, [⟨"child", .range none (some (.number (.int 18)))⟩,
        ⟨"adult", .range (some (.number (.int 18))) (some (.number (.int 65)))⟩,
        ⟨"senior", .range (some (.number (.int 65))) none⟩]⟩] }

/-- A patient on a bound is in one band, and one without an age is not counted. -/
theorem counted_once_patientAges :
    agesEvaluation.FollowsOrder ∧ ageBounds ≠ [] ∧
    (∀ c ∈ ageBounds, ∀ row, agesEvaluation.value row (.constant c) = some (ageOf c)) ∧
    ageBounds.Pairwise (ageOf · < ageOf ·) ∧
    ((bands ageBounds).countP fun m =>
      agesEvaluation.truth? (some 18, 7) (m.condition "age") = some .yes) = 1 ∧
    ∃ c ∈ patientAges.columns,
      c.values.map PivotValue.selects = bands ageBounds ∧
      ((c.values.map (patientAges.cell "age")).flatMap fun i => agesEvaluation.argumentValues
        [(some 70, 3), (some 18, 7), (none, 8), (some 65, 9)] i.expr).Perm [3, 7, 9] := by
  have hM : agesEvaluation.FollowsOrder := Evaluation.followsOrder_ofOrder _
  have hbounds : ageBounds ≠ [] := List.cons_ne_nil _ _
  have hread : ∀ c ∈ ageBounds, ∀ row, agesEvaluation.value row (.constant c) = some (ageOf c) :=
    fun _ _ _ => rfl
  have hsorted : ageBounds.Pairwise (ageOf · < ageOf ·) := by decide +kernel
  obtain ⟨hone, -, hcells⟩ := counted_once hM hbounds hread hsorted "age"
  exact ⟨hM, hbounds, hread, hsorted, hone _ rfl, _, List.mem_cons_self, rfl,
    (hcells patientAges _ List.mem_cons_self rfl rfl).2 _⟩

end PivotMatch

end SqlTree
