import Mathlib.Data.List.Nodup

/-!
# Numbers in a stable sort

Rows are numbered by their positions in a stable sort. Keeping the rows with numbers in a range and
sorting what is left gives the part of the sorted rows that the range stands for: a stable sort
does not mind if rows are left out first.

Results:
* `mergeSort_filter`: filtering and stable sorting commute.
* `mergeSort_zip_positions`: rows with their numbers, sorted, are numbered one after another.
* `map_fst_mergeSort_filter_positions`: sorting the rows with numbers in a range is cutting a part
  out of the sorted rows.
-/

namespace SqlTree

variable {α : Type} {le : α → α → Bool}

/-! ## Leaving rows out -/

/-- A list is split in one way only into what is below an element and what is not. -/
theorem eq_and_eq_of_append_eq {a : α} {xs ys xs' ys' : List α} (h : xs' ++ ys' = xs ++ ys)
    (hxs : ∀ b ∈ xs, (!le a b) = true) (hys : ∀ b ∈ ys, le a b = true)
    (hxs' : ∀ b ∈ xs', (!le a b) = true) (hys' : ∀ b ∈ ys', le a b = true) :
    xs' = xs ∧ ys' = ys := by
  have hfilter {us vs : List α} (hus : ∀ b ∈ us, (!le a b) = true)
      (hvs : ∀ b ∈ vs, le a b = true) : (us ++ vs).filter (fun b => !le a b) = us := by
    have hnone : ∀ b ∈ vs, ¬(!le a b) = true := fun b hb => by simp [hvs b hb]
    rw [List.filter_append, List.filter_eq_self.mpr hus, List.filter_eq_nil_iff.mpr hnone,
      List.append_nil]
  have hleft : xs' = xs := by rw [← hfilter hxs' hys', h, hfilter hxs hys]
  subst hleft
  exact ⟨rfl, List.append_cancel_left h⟩

theorem le_of_mem_right_of_mergeSort {a : α} {l xs ys : List α}
    (htrans : ∀ a b c, le a b = true → le b c = true → le a c = true)
    (htotal : ∀ a b, (le a b || le b a) = true) (h : (a :: l).mergeSort le = xs ++ a :: ys) :
    ∀ b ∈ ys, le a b = true := by
  have hsorted := List.pairwise_mergeSort htrans htotal (a :: l)
  rw [h] at hsorted
  exact (List.pairwise_cons.mp (List.pairwise_append.mp hsorted).2.1).1

/-- Filtering and stable sorting commute. -/
theorem mergeSort_filter (htrans : ∀ a b c, le a b = true → le b c = true → le a c = true)
    (htotal : ∀ a b, (le a b || le b a) = true) (p : α → Bool) (l : List α) :
    (l.filter p).mergeSort le = (l.mergeSort le).filter p := by
  induction l with
  | nil => simp
  | cons a l ih =>
    obtain ⟨xs, ys, hsort, hrest, hxs⟩ := List.mergeSort_cons htrans htotal a l
    by_cases hp : p a = true
    · obtain ⟨xs', ys', hsort', hrest', hxs'⟩ := List.mergeSort_cons htrans htotal a (l.filter p)
      have hys := le_of_mem_right_of_mergeSort htrans htotal hsort
      have hys' := le_of_mem_right_of_mergeSort htrans htotal hsort'
      have happend : xs' ++ ys' = xs.filter p ++ ys.filter p := by
        rw [← hrest', ih, hrest, List.filter_append]
      obtain ⟨rfl, rfl⟩ := eq_and_eq_of_append_eq happend
        (fun b hb => hxs b (List.mem_filter.mp hb).1)
        (fun b hb => hys b (List.mem_filter.mp hb).1) hxs' hys'
      rw [List.filter_cons_of_pos hp, hsort', hsort, List.filter_append,
        List.filter_cons_of_pos hp]
    · rw [List.filter_cons_of_neg hp, ih, hsort, hrest, List.filter_append, List.filter_append,
        List.filter_cons_of_neg hp]

/-! ## Positions -/

/-- The position of each member of a list in the sorted list, counted from one. Among equal members
the first comes first. -/
def positions (le : α → α → Bool) (l : List α) : List Nat :=
  let order := (l.zipIdx.mergeSort fun a b => le a.1 b.1).map Prod.snd
  (List.range l.length).map fun i => order.idxOf i + 1

theorem length_positions (le : α → α → Bool) (l : List α) :
    (positions le l).length = l.length := by
  simp [positions]

theorem zip_map_range (g : Nat → Nat) (l : List α) :
    l.zip ((List.range l.length).map g) = l.zipIdx.map fun x => (x.1, g x.2) := by
  rw [List.zip_map_right, List.zipIdx_eq_zip_range', List.range_eq_range']
  rfl

/-- Counting along a list of pairs with different second parts finds each pair where it is. -/
theorem map_idxOf_eq_zipIdx (l : List (α × Nat)) (h : (l.map Prod.snd).Nodup) :
    l.map (fun x => (x.1, (l.map Prod.snd).idxOf x.2 + 1)) = (l.map Prod.fst).zipIdx 1 := by
  refine List.ext_getElem (by simp) ?_
  intro i hi hi'
  have hlength : i < (l.map Prod.snd).length := by simpa using hi
  have hidx := h.idxOf_getElem i hlength
  rw [List.getElem_map] at hidx
  rw [List.getElem_map, List.getElem_zipIdx, List.getElem_map, hidx, Nat.add_comm]

theorem positions_map {β : Type} (le : β → β → Bool) (f : α → β) (l : List α) :
    positions le (l.map f) = positions (fun a b => le (f a) (f b)) l := by
  have hsort : (l.map f).zipIdx.mergeSort (fun a b => le a.1 b.1) =
      (l.zipIdx.mergeSort fun a b => le (f a.1) (f b.1)).map (Prod.map f id) := by
    rw [List.zipIdx_map]
    refine (List.map_mergeSort ?_).symm
    intro a _ b _
    rfl
  rw [positions, positions, hsort, List.map_map, List.length_map]
  rfl

theorem mem_positions {le : α → α → Bool} {l : List α} {n : Nat} (h : n ∈ positions le l) :
    n ≤ l.length := by
  obtain ⟨i, hi, rfl⟩ := List.mem_map.mp h
  have hmem : i ∈ (l.zipIdx.mergeSort fun a b => le a.1 b.1).map Prod.snd := by
    have hperm := (List.mergeSort_perm l.zipIdx fun a b => le a.1 b.1).map Prod.snd
    rw [hperm.mem_iff, List.zipIdx_map_snd, ← List.range_eq_range']
    exact hi
  have hlt := List.idxOf_lt_length_of_mem hmem
  rw [List.length_map, List.length_mergeSort, List.length_zipIdx] at hlt
  exact hlt

/-- Members with their positions, sorted, are numbered one after another. -/
theorem mergeSort_zip_positions (le : α → α → Bool) (l : List α) :
    (l.zip (positions le l)).mergeSort (fun a b => le a.1 b.1) = (l.mergeSort le).zipIdx 1 := by
  have hnodup : ((l.zipIdx.mergeSort fun a b => le a.1 b.1).map Prod.snd).Nodup := by
    have hperm := (List.mergeSort_perm l.zipIdx fun a b => le a.1 b.1).map Prod.snd
    rw [hperm.nodup_iff, List.zipIdx_map_snd]
    exact List.nodup_range'
  have hsorted : (l.zipIdx.mergeSort fun a b => le a.1 b.1).map Prod.fst = l.mergeSort le := by
    rw [List.map_mergeSort (s := le) fun a _ b _ => rfl, List.zipIdx_map_fst]
  rw [← hsorted, ← map_idxOf_eq_zipIdx _ hnodup, positions, zip_map_range]
  refine (List.map_mergeSort ?_).symm
  intro a _ b _
  rfl

/-! ## Ranges of numbers -/

/-- The members that are numbered in a range are those that are left when as many as stand before
the range are dropped. -/
theorem map_fst_filter_zipIdx (l : List α) (k skipped taken : Nat) :
    ((l.zipIdx (k + 1)).filter
      (fun x => decide (skipped + k < x.2 ∧ x.2 ≤ skipped + taken + k))).map Prod.fst =
      (l.drop skipped).take taken := by
  induction l generalizing k skipped taken with
  | nil => simp
  | cons a l ih =>
    rw [List.zipIdx_cons]
    cases skipped with
    | zero =>
      cases taken with
      | zero =>
        have hnone : ∀ x ∈ (a, k + 1) :: l.zipIdx (k + 1 + 1),
            ¬decide (0 + k < x.2 ∧ x.2 ≤ 0 + 0 + k) = true := by
          intro x _
          rw [decide_eq_true_eq]
          omega
        rw [List.filter_eq_nil_iff.mpr hnone]
        rfl
      | succ taken =>
        have hsame : ∀ x ∈ l.zipIdx (k + 1 + 1),
            decide (0 + k < x.2 ∧ x.2 ≤ 0 + (taken + 1) + k) =
              decide (0 + (k + 1) < x.2 ∧ x.2 ≤ 0 + taken + (k + 1)) := by
          intro x hx
          have hle := List.le_snd_of_mem_zipIdx hx
          rw [decide_eq_decide]
          omega
        have hfirst : decide (0 + k < k + 1 ∧ k + 1 ≤ 0 + (taken + 1) + k) = true := by
          rw [decide_eq_true_eq]
          omega
        rw [List.filter_cons, if_pos hfirst, List.map_cons, List.filter_congr hsame, ih (k + 1)]
        rfl
    | succ skipped =>
      have hsame (x : α × Nat) :
          decide (skipped + 1 + k < x.2 ∧ x.2 ≤ skipped + 1 + taken + k) =
            decide (skipped + (k + 1) < x.2 ∧ x.2 ≤ skipped + taken + (k + 1)) := by
        rw [decide_eq_decide]
        omega
      have hfirst : ¬decide (skipped + 1 + k < k + 1 ∧ k + 1 ≤ skipped + 1 + taken + k) = true := by
        rw [decide_eq_true_eq]
        omega
      rw [List.filter_cons, if_neg hfirst, List.drop_succ_cons, ← ih (k + 1)]
      simp only [hsame]

/-- Sorting the rows with numbers in a range is cutting a part out of the sorted rows. -/
theorem map_fst_mergeSort_filter_positions
    (htrans : ∀ a b c, le a b = true → le b c = true → le a c = true)
    (htotal : ∀ a b, (le a b || le b a) = true) (l : List α) (skipped taken : Nat) :
    (((l.zip (positions le l)).filter
      (fun x => decide (skipped < x.2 ∧ x.2 ≤ skipped + taken))).mergeSort
        (fun a b => le a.1 b.1)).map Prod.fst = ((l.mergeSort le).drop skipped).take taken := by
  rw [mergeSort_filter (fun a b c => htrans a.1 b.1 c.1) (fun a b => htotal a.1 b.1),
    mergeSort_zip_positions]
  exact map_fst_filter_zipIdx (l.mergeSort le) 0 skipped taken

end SqlTree
