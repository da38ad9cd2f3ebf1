import SqlTree.Syntax.Expr

/-!
# Orders of rows

The values of rows come from a reading: it gives each expression a value in each row, and values an
order in which different ones may be equal. Rows are compared by lists of cells, the first ones
that differ being decisive.

Results:
* `Reading.keysLE_trans`, `Reading.keysLE_total`: rows may be sorted by their lists of cells.
-/

namespace SqlTree

/-- How a query reads rows: the value of each expression in a row, and an order of values in which
different values may be equal. -/
structure Reading (ρ V : Type) where
  value : Expr → ρ → V
  le : V → V → Bool
  le_trans : ∀ a b c, le a b = true → le b c = true → le a c = true
  le_total : ∀ a b, (le a b || le b a) = true

/-- What stands in a column of a row: a value that was read, or a number that a block has made. -/
inductive Cell (V : Type) where
  | data (v : V)
  | number (n : Int)
deriving DecidableEq

variable {ρ V : Type}

/-! ## Orders -/

namespace Reading

variable (M : Reading ρ V)

/-- The order of cells; numbers are above values. -/
def cellLE : Cell V → Cell V → Bool
  | .data a, .data b => M.le a b
  | .number m, .number n => decide (m ≤ n)
  | .data _, .number _ => true
  | .number _, .data _ => false

/-- The order of cells in a direction. -/
def directedLE : SortDirection → Cell V → Cell V → Bool
  | .asc, a, b => M.cellLE a b
  | .desc, a, b => M.cellLE b a

/-- The order of lists of cells: by the first cells, among equal ones by the next, and so on. -/
def keysLE : List SortDirection → List (Cell V) → List (Cell V) → Bool
  | [], _, _ => true
  | _ :: _, [], _ => true
  | _ :: _, _ :: _, [] => false
  | d :: ds, a :: as, b :: bs =>
    M.directedLE d a b && (!M.directedLE d b a || keysLE ds as bs)

theorem cellLE_trans (a b c : Cell V) (hab : M.cellLE a b = true) (hbc : M.cellLE b c = true) :
    M.cellLE a c = true := by
  cases a with
  | data a =>
    cases c with
    | number c => rfl
    | data c =>
      cases b with
      | data b => exact M.le_trans a b c hab hbc
      | number b => exact absurd hbc Bool.false_ne_true
  | number a =>
    cases b with
    | data b => exact absurd hab Bool.false_ne_true
    | number b =>
      cases c with
      | data c => exact absurd hbc Bool.false_ne_true
      | number c =>
        simp only [cellLE, decide_eq_true_eq] at hab hbc ⊢
        exact Int.le_trans hab hbc

theorem cellLE_total (a b : Cell V) : (M.cellLE a b || M.cellLE b a) = true := by
  cases a <;> cases b <;> simp only [cellLE, Bool.or_true, Bool.or_false]
  · exact M.le_total _ _
  · rw [Bool.or_eq_true, decide_eq_true_eq, decide_eq_true_eq]
    omega

theorem directedLE_trans (d : SortDirection) (a b c : Cell V) (hab : M.directedLE d a b = true)
    (hbc : M.directedLE d b c = true) : M.directedLE d a c = true := by
  cases d with
  | asc => exact M.cellLE_trans _ _ _ hab hbc
  | desc => exact M.cellLE_trans _ _ _ hbc hab

theorem directedLE_total (d : SortDirection) (a b : Cell V) :
    (M.directedLE d a b || M.directedLE d b a) = true := by
  cases d with
  | asc => exact M.cellLE_total _ _
  | desc => exact M.cellLE_total _ _

theorem keysLE_trans (ds : List SortDirection) (as bs cs : List (Cell V))
    (hab : M.keysLE ds as bs = true) (hbc : M.keysLE ds bs cs = true) :
    M.keysLE ds as cs = true := by
  induction ds generalizing as bs cs with
  | nil => rfl
  | cons d ds ih =>
    cases as with
    | nil => rfl
    | cons a as =>
      cases bs with
      | nil => exact absurd hab Bool.false_ne_true
      | cons b bs =>
        cases cs with
        | nil => exact absurd hbc Bool.false_ne_true
        | cons c cs =>
          simp only [keysLE, Bool.and_eq_true, Bool.or_eq_true, Bool.not_eq_true'] at hab hbc ⊢
          obtain ⟨hab, htail⟩ := hab
          obtain ⟨hbc, htail'⟩ := hbc
          refine ⟨M.directedLE_trans d a b c hab hbc, ?_⟩
          cases hca : M.directedLE d c a with
          | false => exact .inl rfl
          | true =>
            -- all three first cells are equal now, so the next ones decide
            have hba := M.directedLE_trans d b c a hbc hca
            have hcb := M.directedLE_trans d c a b hca hab
            exact .inr (ih as bs cs (htail.resolve_left (by simp [hba]))
              (htail'.resolve_left (by simp [hcb])))

theorem keysLE_total (ds : List SortDirection) (as bs : List (Cell V)) :
    (M.keysLE ds as bs || M.keysLE ds bs as) = true := by
  induction ds generalizing as bs with
  | nil => rfl
  | cons d ds ih =>
    cases as with
    | nil => rfl
    | cons a as =>
      cases bs with
      | nil => rfl
      | cons b bs =>
        have hfirst := M.directedLE_total d a b
        have hrest := ih as bs
        simp only [keysLE]
        cases hab : M.directedLE d a b <;> cases hba : M.directedLE d b a <;> simp_all

end Reading

end SqlTree
