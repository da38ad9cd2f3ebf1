import SqlTree.Proofs.Paging.FreshNames

/-!
# The search for a fresh name

A fresh name is found by trying: first the stem, then the stem with two, three and so on behind it,
as long as a column has the name that is tried. Nothing in the search counts the columns. It ends
because the names that are tried differ, so each of them that is in use takes another column.

* `searchName`: the search from one name on.

Results:
* `searchName_eq_find?`: a search finds the first name that no column has.
* `searchName_of_le`: a search that has ended does not change when more tests are allowed.
* `searchName_freshName`: the search from the stem ends with a fresh name, and what fresh names are.
-/

namespace SqlTree

/-- The search for a name that no column has, from a name on; the next names to try have the numbers
after `n`. It is given up after as many tests as there are. -/
def searchName (items : List SelectItem) (stem : String) : Nat → String → Nat → Option String
  | 0, _, _ => none
  | tests + 1, name, n =>
    if isTaken items name then searchName items stem tests (numberedName stem (n + 1)) (n + 1)
    else some name

variable (items : List SelectItem) (stem : String)

/-- A search finds the first name that no column has. -/
theorem searchName_eq_find? (tests : Nat) (name : String) (n : Nat) :
    searchName items stem (tests + 1) name n =
      (name :: (List.range tests).map fun k => numberedName stem (n + 1 + k)).find?
        fun name => !isTaken items name := by
  induction tests generalizing name n with
  | zero =>
    rw [searchName, searchName]
    cases h : isTaken items name <;> simp [h]
  | succ tests ih =>
    have hnext : (List.range (tests + 1)).map (fun k => numberedName stem (n + 1 + k)) =
        numberedName stem (n + 1) ::
          (List.range tests).map fun k => numberedName stem (n + 1 + 1 + k) := by
      rw [List.range_succ_eq_map, List.map_cons, List.map_map]
      simp only [Function.comp_def, Nat.add_zero, Nat.succ_eq_add_one, Nat.add_assoc,
        Nat.add_comm 1]
    rw [searchName]
    cases h : isTaken items name with
    | false =>
      rw [if_neg Bool.false_ne_true]
      exact (List.find?_cons_of_pos (by simp [h])).symm
    | true =>
      rw [if_pos rfl, ih, hnext]
      exact (List.find?_cons_of_neg (by simp [h])).symm

/-- A search that has ended does not change when more tests are allowed. -/
theorem searchName_of_le {tests more : Nat} (hle : tests ≤ more) {name found : String} {n : Nat}
    (h : searchName items stem tests name n = some found) :
    searchName items stem more name n = some found := by
  induction tests generalizing more name n with
  | zero => simp [searchName] at h
  | succ tests ih =>
    obtain ⟨more, rfl⟩ := Nat.exists_eq_add_of_le' (Nat.zero_lt_of_lt hle)
    rw [searchName] at h ⊢
    split at h
    · rename_i htaken
      rw [if_pos htaken]
      exact ih (Nat.le_of_succ_le_succ hle) h
    · rename_i hfree
      rwa [if_neg hfree]

/-- As many tests as there are candidates are enough, and these are one more than the columns. -/
theorem searchName_length_add_one :
    searchName items stem (items.length + 1) stem 1 = some (freshName items stem) := by
  rw [searchName_eq_find?, ← find?_candidateNames, candidateNames]
  simp only [Nat.reduceAdd, Nat.add_comm 2]

/-- The search from a stem ends with its fresh name when it has tried one name more than there are
columns, at the latest. No column has this name, in lower or upper case, and it is the stem or the
stem with a number behind it that is at least two. -/
theorem searchName_freshName :
    (∀ tests, items.length + 1 ≤ tests →
      searchName items stem tests stem 1 = some (freshName items stem)) ∧
    (∀ i ∈ items, ∀ name, i.outputName = some name →
      name.toLower ≠ (freshName items stem).toLower) ∧
    (freshName items stem = stem ∨
      ∃ n, 2 ≤ n ∧ n ≤ items.length + 1 ∧ freshName items stem = numberedName stem n) := by
  refine ⟨fun tests hle => ?_, fun i hi name hname hsame => ?_, freshName_eq_or items stem⟩
  · exact searchName_of_le items stem hle (searchName_length_add_one items stem)
  · refine toLower_freshName_notMem items stem ?_
    rw [← hsame, usedNames, List.mem_filterMap]
    exact ⟨i, hi, by rw [hname, Option.map_some]⟩

/-- Columns with the names of a stem and of its first number, one of them in other letters. -/
def numberedColumns : List SelectItem :=
  ["Col2", "col22"].map fun name => { expr := .field none name, aliasName := none }

theorem searchName_freshName_numberedColumns :
    searchName numberedColumns "col2" 3 "col2" 1 = some "col23" ∧
      ∀ i ∈ numberedColumns, ∀ name, i.outputName = some name → name.toLower ≠ "col23".toLower := by
  have hstem : isTaken numberedColumns "col2" = true :=
    List.any_eq_true.mpr ⟨_, List.mem_cons_self, sameName_of_toList (by decide)⟩
  have hsecond : isTaken numberedColumns (numberedName "col2" 2) = true := by decide +kernel
  have hthird : isTaken numberedColumns (numberedName "col2" 3) = false := by decide +kernel
  have hfound : searchName numberedColumns "col2" 3 "col2" 1 = some (numberedName "col2" 3) := by
    simp [searchName, hstem, hsecond, hthird]
  obtain ⟨hends, hunused, -⟩ := searchName_freshName numberedColumns "col2"
  have hfresh : freshName numberedColumns "col2" = "col23" :=
    Option.some.inj ((hends 3 (by decide)).symm.trans hfound)
  rw [hfresh] at hends hunused
  exact ⟨hends 3 (by decide), hunused⟩

end SqlTree
