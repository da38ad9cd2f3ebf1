import Mathlib.Data.List.Nodup
import SqlTree.Paging.NumberedBlocks
import SqlTree.Proofs.Text.Digits

/-!
# Fresh names

A fresh name differs from every name in use: the candidates differ pairwise, and there is one more
of them than there are columns. The numbers at the ends of candidates are written in digits, which
have no case, so two candidates also differ when the case of letters is ignored.

Results:
* `nodup_candidateNames`: no two candidates differ in case only.
* `toLower_freshName_notMem`: no column has the fresh name.
* `toLower_freshName_ne_rowNumberName`: a fresh name is that of the row numbers only if its stem is.
-/

namespace SqlTree

/-! ## Numbered names -/

theorem sameName_iff {a b : String} : sameName a b = true ↔ a.toLower = b.toLower := by
  simp [sameName]

theorem toList_toLower (s : String) : s.toLower.toList = s.toList.map Char.toLower := by
  show (s.map Char.toLower).toList = s.toList.map Char.toLower
  simp

theorem sameName_of_toList {a b : String}
    (h : a.toList.map Char.toLower = b.toList.map Char.toLower) : sameName a b = true := by
  rw [sameName_iff, ← String.toList_inj, toList_toLower, toList_toLower, h]

theorem toLower_of_isDigit {c : Char} (h : c.isDigit = true) : c.toLower = c := by
  have hsmall : ¬(c.val ≥ 'A'.val ∧ c.val ≤ 'Z'.val) := by
    rintro ⟨hlarge, -⟩
    simp only [Char.isDigit, Bool.and_eq_true, decide_eq_true_eq] at h
    exact absurd (UInt32.le_trans hlarge h.2) (by decide)
  exact dif_neg hsmall

theorem Text.map_toLower_digits (n : Nat) : (digits n).map Char.toLower = digits n := by
  have hid : ∀ c ∈ digits n, c.toLower = c := fun c hc =>
    toLower_of_isDigit (isDigit_of_mem_digits hc)
  rw [List.map_congr_left hid, List.map_id']

theorem toList_toLower_numberedName (stem : String) (n : Nat) :
    (numberedName stem n).toLower.toList = stem.toLower.toList ++ Text.digits n := by
  rw [toList_toLower, numberedName, String.toList_append, String.toList_ofList, List.map_append,
    Text.map_toLower_digits, ← toList_toLower]

theorem toLower_numberedName_injective {stem : String} {m n : Nat}
    (h : (numberedName stem m).toLower = (numberedName stem n).toLower) : m = n := by
  have hlists := congrArg String.toList h
  rw [toList_toLower_numberedName, toList_toLower_numberedName] at hlists
  exact Text.digits_injective (List.append_cancel_left hlists)

theorem toLower_numberedName_ne (stem : String) (n : Nat) :
    (numberedName stem n).toLower ≠ stem.toLower := by
  intro h
  have hlists := congrArg String.toList h
  rw [toList_toLower_numberedName] at hlists
  exact Text.digits_ne_nil n (List.append_right_eq_self.mp hlists)

theorem exists_isDigit_mem_numberedName (stem : String) (n : Nat) :
    ∃ c ∈ (numberedName stem n).toList, c.isDigit = true := by
  obtain ⟨c, hc⟩ := List.exists_mem_of_ne_nil _ (Text.digits_ne_nil n)
  refine ⟨c, ?_, Text.isDigit_of_mem_digits hc⟩
  rw [numberedName, String.toList_append, String.toList_ofList]
  exact List.mem_append_right _ hc

/-- No numbered name is that of the row numbers, which has no digit. -/
theorem toLower_numberedName_ne_rowNumberName (stem : String) (n : Nat) :
    (numberedName stem n).toLower ≠ rowNumberName.toLower := by
  intro h
  obtain ⟨c, hc⟩ := List.exists_mem_of_ne_nil _ (Text.digits_ne_nil n)
  have hmem : c ∈ rowNumberName.toLower.toList := by
    rw [← h, toList_toLower_numberedName]
    exact List.mem_append_right _ hc
  have hnone : (rowNumberName.toList.map Char.toLower).all (fun c => !c.isDigit) = true := by
    decide
  rw [toList_toLower] at hmem
  have hother := List.all_eq_true.mp hnone c hmem
  rw [Text.isDigit_of_mem_digits hc] at hother
  exact Bool.false_ne_true hother

/-! ## Candidates -/

/-- No two candidates differ in case only. -/
theorem nodup_candidateNames (items : List SelectItem) (stem : String) :
    ((candidateNames items stem).map String.toLower).Nodup := by
  rw [candidateNames, List.map_cons, List.map_map, List.nodup_cons]
  refine ⟨?_, ?_⟩
  · intro h
    obtain ⟨k, -, hk⟩ := List.mem_map.mp h
    exact toLower_numberedName_ne stem (k + 2) hk
  · refine List.Nodup.map ?_ List.nodup_range
    intro m n h
    have := toLower_numberedName_injective h
    omega

/-- The names of output columns, in lower case. -/
def usedNames (items : List SelectItem) : List String :=
  items.filterMap fun i => i.outputName.map String.toLower

theorem SelectItem.isNamed_iff {i : SelectItem} {name : String} :
    i.isNamed name = true ↔ ∃ n, i.outputName = some n ∧ n.toLower = name.toLower := by
  unfold isNamed
  cases i.outputName with
  | none => simp
  | some n => simpa using sameName_iff

theorem isTaken_iff {items : List SelectItem} {name : String} :
    isTaken items name = true ↔ name.toLower ∈ usedNames items := by
  rw [isTaken, List.any_eq_true, usedNames, List.mem_filterMap]
  refine exists_congr fun i => and_congr_right fun _ => ?_
  rw [SelectItem.isNamed_iff, Option.map_eq_some_iff]

theorem length_usedNames_le (items : List SelectItem) :
    (usedNames items).length ≤ items.length :=
  List.length_filterMap_le _ _

/-- If every candidate were in use, there would be as many names in use as candidates, which are
more than the columns. -/
theorem exists_candidateNames_not_isTaken (items : List SelectItem) (stem : String) :
    ∃ name ∈ candidateNames items stem, isTaken items name = false := by
  by_contra hall
  have hsub : (candidateNames items stem).map String.toLower ⊆ usedNames items := by
    intro lower hlower
    obtain ⟨name, hname, rfl⟩ := List.mem_map.mp hlower
    refine isTaken_iff.mp ?_
    by_contra htaken
    exact hall ⟨name, hname, by simpa using htaken⟩
  have hlength := (nodup_candidateNames items stem).length_le_of_subset hsub
  have hused := length_usedNames_le items
  rw [List.length_map, length_candidateNames] at hlength
  omega

theorem find?_candidateNames (items : List SelectItem) (stem : String) :
    (candidateNames items stem).find? (fun name => !isTaken items name) =
      some (freshName items stem) := by
  rw [freshName]
  cases h : (candidateNames items stem).find? fun name => !isTaken items name with
  | some name => rfl
  | none =>
    obtain ⟨name, hname, hfree⟩ := exists_candidateNames_not_isTaken items stem
    have := List.find?_eq_none.mp h name hname
    simp [hfree] at this

/-- No column has the fresh name. -/
theorem toLower_freshName_notMem (items : List SelectItem) (stem : String) :
    (freshName items stem).toLower ∉ usedNames items := by
  intro h
  have hfree := List.find?_some (find?_candidateNames items stem)
  simp [isTaken_iff.mpr h] at hfree

theorem freshName_mem_candidateNames (items : List SelectItem) (stem : String) :
    freshName items stem ∈ candidateNames items stem :=
  List.mem_of_find?_eq_some (find?_candidateNames items stem)

/-- A fresh name is its stem, or the stem with a number from two to one more than there are
columns. -/
theorem freshName_eq_or (items : List SelectItem) (stem : String) :
    freshName items stem = stem ∨
      ∃ n, 2 ≤ n ∧ n ≤ items.length + 1 ∧ freshName items stem = numberedName stem n := by
  rcases List.mem_cons.mp (freshName_mem_candidateNames items stem) with hstem | hnumbered
  · exact .inl hstem
  · obtain ⟨k, hk, hname⟩ := List.mem_map.mp hnumbered
    have := List.mem_range.mp hk
    exact .inr ⟨k + 2, by omega, by omega, hname.symm⟩

/-- A fresh name is that of the row numbers only if its stem is. -/
theorem toLower_freshName_ne_rowNumberName (items : List SelectItem) {stem : String}
    (h : stem.toLower ≠ rowNumberName.toLower) :
    (freshName items stem).toLower ≠ rowNumberName.toLower := by
  rcases freshName_eq_or items stem with hstem | ⟨n, -, -, hnumber⟩
  · rwa [hstem]
  · rw [hnumber]
    exact toLower_numberedName_ne_rowNumberName stem n

end SqlTree
