import Mathlib.Data.List.Dedup
import Mathlib.Data.List.Induction
import SqlTree.Settings.Basic

/-!
# Mappings of settings

A registry keeps one mapping for each record type, the last one of several. So it loses mappings of
a list in which a record type comes twice, and settings are checked for that. The check goes through
the mappings once, with the record types that it has seen.

* `TableMapping.IsComplete`: a mapping names its record type and its table.

Results:
* `Registry.get?_register`, `Registry.get?_ofList`: which mapping is found after one or several
  were added.
* `Registry.size_ofList`: a registry has as many mappings as there are different record types.
* `Settings.mappingFaults_eq_nil_iff`: what a list of mappings without faults is.
* `Settings.check_eq_ok_iff_and_registry_keeps`: when settings pass, and that the registry of such
  settings has all their mappings.
-/

namespace SqlTree

/-- A mapping names its record type and its table. -/
def TableMapping.IsComplete (m : TableMapping) : Prop := m.recordType ≠ "" ∧ m.tableName ≠ ""

/-! ## Registries -/

namespace Registry

variable (r : Registry) (m : TableMapping) (ms : List TableMapping) (recordType : String)

theorem isSome_get?_iff :
    (r.get? recordType).isSome = true ↔ recordType ∈ r.mappings.map TableMapping.recordType := by
  simp [get?, List.find?_isSome]

/-- After a mapping was added, it is the one of its record type; the others stay. -/
theorem get?_register :
    (r.register m).get? recordType =
      if m.recordType = recordType then some m else r.get? recordType := by
  show (m :: r.others m.recordType).find? (fun m' => m'.recordType == recordType) = _
  split
  · rename_i hsame
    exact List.find?_cons_of_pos (by simpa using hsame)
  · rename_i hother
    rw [List.find?_cons_of_neg (by simpa using hother), others, List.find?_filter, get?]
    congr 1
    funext m'
    -- a mapping of the record type that is looked for is none of the replaced ones
    by_cases h : m'.recordType = recordType
    · simp [h, Ne.symm hother]
    · simp [h]

/-- Of several mappings of a record type, the last one is found. -/
theorem get?_ofList :
    (ofList ms).get? recordType = ms.reverse.find? fun m => m.recordType == recordType := by
  induction ms using List.reverseRecOn with
  | nil => rfl
  | append_singleton ms m ih =>
    have hstep : ofList (ms ++ [m]) = (ofList ms).register m := List.foldl_concat ..
    rw [hstep, get?_register, List.reverse_concat, ih]
    split
    · rename_i hsame
      exact (List.find?_cons_of_pos (by simpa using hsame)).symm
    · rename_i hother
      exact (List.find?_cons_of_neg (by simpa using hother)).symm

/-- The record types of a registry and those of the list that it was made from are the same. -/
theorem mem_recordTypes_ofList_iff :
    recordType ∈ (ofList ms).mappings.map TableMapping.recordType ↔
      recordType ∈ ms.map TableMapping.recordType := by
  rw [← isSome_get?_iff, get?_ofList]
  simp [List.find?_isSome]

/-- A registry has as many mappings as there are different record types. -/
theorem size_ofList : (ofList ms).size = (ms.map TableMapping.recordType).dedup.length := by
  have hperm : ((ofList ms).mappings.map TableMapping.recordType).Perm
      (ms.map TableMapping.recordType).dedup := by
    rw [List.perm_ext_iff_of_nodup (ofList ms).nodup (List.nodup_dedup _)]
    intro name
    rw [mem_recordTypes_ofList_iff, List.mem_dedup]
  rw [size, ← hperm.length_eq, List.length_map]

variable {m ms}

theorem find?_recordType_of_nodup (h : (ms.map TableMapping.recordType).Nodup) (hm : m ∈ ms) :
    (ms.find? fun m' => m'.recordType == m.recordType) = some m := by
  cases hfind : ms.find? fun m' => m'.recordType == m.recordType with
  | none => exact absurd (List.find?_eq_none.mp hfind m hm) (by simp)
  | some m' =>
    have hsame : m'.recordType = m.recordType := by simpa using List.find?_some hfind
    rw [List.inj_on_of_nodup_map h (List.mem_of_find?_eq_some hfind) hm hsame]

/-- Where no record type comes twice, every mapping is found. -/
theorem get?_ofList_of_nodup (h : (ms.map TableMapping.recordType).Nodup) (hm : m ∈ ms) :
    (ofList ms).get? m.recordType = some m := by
  rw [get?_ofList]
  refine find?_recordType_of_nodup ?_ (List.mem_reverse.mpr hm)
  rw [List.map_reverse]
  exact List.nodup_reverse.mpr h

theorem size_ofList_of_nodup (h : (ms.map TableMapping.recordType).Nodup) :
    (ofList ms).size = ms.length := by
  rw [size_ofList, h.dedup, List.length_map]

end Registry

/-! ## Settings -/

namespace Settings

/-- Mappings have no fault if all are complete and no record type comes twice, nor one of those that
were seen before. -/
theorem mappingFaults_eq_nil_iff (seen : List String) (number : Nat) (ms : List TableMapping) :
    mappingFaults seen number ms = [] ↔
      (∀ m ∈ ms, m.IsComplete) ∧ (∀ m ∈ ms, m.recordType ∉ seen) ∧
        (ms.map TableMapping.recordType).Nodup := by
  induction ms generalizing seen number with
  | nil => simp [mappingFaults]
  | cons m ms ih =>
    have hcomplete : (if m.recordType = "" ∨ m.tableName = "" then
        [MappingFault.incomplete number] else []) = [] ↔ m.IsComplete := by
      simp [TableMapping.IsComplete]
    have hseen : (if m.recordType ∈ seen then [MappingFault.recordTypeTwice m.recordType]
        else []) = [] ↔ m.recordType ∉ seen := by
      simp
    -- a later record type is new if it is not that of the first mapping, nor one seen before
    have hlater : (∀ m' ∈ ms, m'.recordType ∉ m.recordType :: seen) ↔
        m.recordType ∉ ms.map TableMapping.recordType ∧ ∀ m' ∈ ms, m'.recordType ∉ seen := by
      simp only [List.mem_cons, not_or, List.mem_map, not_exists, not_and]
      exact forall₂_and
    rw [mappingFaults, List.append_eq_nil_iff, List.append_eq_nil_iff, hcomplete, hseen, ih, hlater,
      List.forall_mem_cons, List.forall_mem_cons, List.map_cons, List.nodup_cons]
    tauto

theorem check_eq_ok_iff (s : Settings) :
    s.check = .ok () ↔
      (∀ m ∈ s.mappings, m.IsComplete) ∧ (s.mappings.map TableMapping.recordType).Nodup := by
  have hfaults := mappingFaults_eq_nil_iff [] 1 s.mappings
  simp only [List.not_mem_nil, not_false_eq_true, implies_true, true_and] at hfaults
  rw [← hfaults, check]
  cases mappingFaults [] 1 s.mappings <;> simp

/-- Settings pass exactly if each mapping has a record type and a table and no record type is mapped
twice. The registry of settings that pass has as many mappings as they do, and each one is found
under its record type. -/
theorem check_eq_ok_iff_and_registry_keeps (s : Settings) :
    (s.check = .ok () ↔
      (∀ m ∈ s.mappings, m.recordType ≠ "" ∧ m.tableName ≠ "") ∧
        (s.mappings.map TableMapping.recordType).Nodup) ∧
    (s.check = .ok () →
      s.registry.size = s.mappings.length ∧
        ∀ m ∈ s.mappings, s.registry.get? m.recordType = some m) := by
  refine ⟨s.check_eq_ok_iff, fun h => ?_⟩
  obtain ⟨-, hnodup⟩ := s.check_eq_ok_iff.mp h
  exact ⟨Registry.size_ofList_of_nodup hnodup, fun m hm => Registry.get?_ofList_of_nodup hnodup hm⟩

/-- Two record types that are stored in one table. -/
theorem check_eq_ok_iff_and_registry_keeps_sharedTable :
    let person : TableMapping := { recordType := "Person", tableName := "parties" }
    let company : TableMapping := { recordType := "Company", tableName := "parties" }
    let s : Settings := { mappings := [person, company] }
    s.check = .ok () ∧ s.registry.size = 2 ∧ s.registry.get? "Person" = some person := by
  intro person company s
  have hcheck : s.check = .ok () := by decide
  obtain ⟨hsize, hfound⟩ := s.check_eq_ok_iff_and_registry_keeps.2 hcheck
  exact ⟨hcheck, hsize, hfound person List.mem_cons_self⟩

end Settings

end SqlTree
