import SqlTree.Data.Value

/-!
# Reading records

What the readers of fields do, without the bounds on the sizes of values that make recursive readers
end. An object in which no two fields have one name is a record, and is read field by field.

* `Value.unlessNull`: the reader of a field that may be null.

Results:
* `Value.required_cons`, `Value.optional_cons`, `Value.withDefault_cons`: a field is found by its
  name.
* `Value.record?_bind`: an object without repeated names is a record.
* `Value.list_array`: a list is read part by part.
-/

namespace SqlTree.Value

variable {α : Type}

/-- What a reader makes of a value, unless the value is null. -/
def unlessNull (read : Value → Option α) : Value → Option (Option α)
  | null => some none
  | v => (read v).map some

/-! ## Fields -/

section

variable (k name : String) (w : Value) (fields : List (String × Value)) (read : Value → Option α)

theorem map_val_field? : ((object fields).field? k).map Subtype.val = fields.lookup k := by
  dsimp only [field?]
  split
  · rename_i h
    exact h.symm
  · rename_i h
    exact h.symm

theorem required_eq :
    (object fields).required k (fun v _ => read v) = (fields.lookup k).bind read := by
  rw [required, ← map_val_field?]
  cases (object fields).field? k <;> rfl

theorem withDefault_eq (default : α) :
    (object fields).withDefault k default (fun v _ => read v) =
      (fields.lookup k).elim (some default) read := by
  rw [withDefault, ← map_val_field?]
  cases (object fields).field? k <;> rfl

theorem optional_eq :
    (object fields).optional k (fun v _ => read v) =
      (fields.lookup k).elim (some none) (unlessNull read) := by
  rw [optional, ← map_val_field?]
  cases (object fields).field? k with
  | none => rfl
  | some v =>
    obtain ⟨v, h⟩ := v
    cases v <;> rfl

theorem lookup_cons_eq_ite :
    ((name, w) :: fields).lookup k = if k = name then some w else fields.lookup k := by
  rw [List.lookup_cons]
  by_cases h : k = name
  · rw [if_pos h, beq_iff_eq.mpr h]
  · rw [if_neg h, beq_eq_false_iff_ne.mpr h]

/-- A field that has to be there is found by its name. -/
@[simp] theorem required_cons :
    (object ((name, w) :: fields)).required k (fun v _ => read v) =
      if k = name then read w else (object fields).required k (fun v _ => read v) := by
  rw [required_eq, required_eq, lookup_cons_eq_ite]
  split <;> rfl

/-- A field with a default is found by its name. -/
@[simp] theorem withDefault_cons (default : α) :
    (object ((name, w) :: fields)).withDefault k default (fun v _ => read v) =
      if k = name then read w else (object fields).withDefault k default (fun v _ => read v) := by
  rw [withDefault_eq, withDefault_eq, lookup_cons_eq_ite]
  split <;> rfl

/-- A field that may be missing is found by its name. -/
@[simp] theorem optional_cons :
    (object ((name, w) :: fields)).optional k (fun v _ => read v) =
      if k = name then unlessNull read w else (object fields).optional k (fun v _ => read v) := by
  rw [optional_eq, optional_eq, lookup_cons_eq_ite]
  split <;> rfl

@[simp] theorem optional_nil : (object []).optional k (fun v _ => read v) = some none := rfl

end

/-! ## Records -/

theorem hasUnique_object {fields : List (String × Value)} (h : (fields.map Prod.fst).Nodup)
    (k : String) : (object fields).hasUnique k = true := by
  have hcount : (fields.filter fun f => f.1 == k).length = (fields.map Prod.fst).count k := by
    rw [← List.countP_eq_length_filter, List.count, List.countP_map]
    rfl
  rw [hasUnique, decide_eq_true_iff, hcount]
  exact List.nodup_iff_count.mp h k

@[simp] theorem isRecord_object {fields : List (String × Value)} (h : (fields.map Prod.fst).Nodup)
    (keys : List String) : (object fields).isRecord keys = true :=
  List.all_eq_true.mpr fun k _ => hasUnique_object h k

/-- An object without repeated names is a record. -/
@[simp] theorem record?_bind {β : Type} {fields : List (String × Value)}
    (h : (fields.map Prod.fst).Nodup)
    (keys : List String) (f : { w : Value // w.size ≤ (object fields).size } → Option β) :
    (object fields).record? keys >>= f = f ⟨object fields, Nat.le_refl _⟩ := by
  have hkeys : keys.all (object fields).hasUnique = true := isRecord_object h keys
  rw [record?, if_pos hkeys]
  rfl

/-! ## Lists -/

theorem readAll_eq {limit : Nat} (read : Value → Option α) (vs : List Value)
    (h : ∀ w ∈ vs, w.size < limit) :
    readAll limit (fun w _ => read w) vs h = vs.mapM read := by
  induction vs with
  | nil => rfl
  | cons v vs ih =>
    rw [readAll, ih, List.mapM_cons]
    cases read v <;> cases vs.mapM read <;> rfl

@[simp] theorem list_array (items : List Value) (read : Value → Option α) :
    (array items).list (fun w _ => read w) = items.mapM read := readAll_eq read items _

/-- A list is read part by part. -/
theorem mapM_map_of_read {β : Type} {read : Value → Option α} {write : β → Value} {f : β → α}
    {xs : List β} (h : ∀ x ∈ xs, read (write x) = some (f x)) :
    (xs.map write).mapM read = some (xs.map f) := by
  induction xs with
  | nil => rfl
  | cons x xs ih =>
    obtain ⟨hx, hxs⟩ := List.forall_mem_cons.mp h
    rw [List.map_cons, List.mapM_cons, hx, ih hxs]
    rfl

theorem mapM_map_of_inverse {read : Value → Option α} {write : α → Value}
    (h : ∀ x, read (write x) = some x) (xs : List α) : (xs.map write).mapM read = some xs := by
  rw [mapM_map_of_read fun x _ => h x, List.map_id']

/-! ## Alternatives -/

theorem size_lt_tagged (name : String) (w : Value) : w.size < (tagged name w).size := by
  simp only [tagged, size, sizeOfFields]
  omega

/-- An alternative with content has its name and its content. -/
@[simp] theorem variant?_tagged (name : String) (w : Value) :
    (tagged name w).variant? = some (name, some ⟨w, size_lt_tagged name w⟩) := rfl

/-! ## Simple values -/

/-- A value is not null if a reader takes it that does not take null. -/
theorem unlessNull_of_read {read : Value → Option α} {v : Value} {x : α} (h : read v = some x)
    (hnull : read null = none) : unlessNull read v = some (some x) := by
  cases v with
  | null => rw [hnull] at h; exact absurd h (by simp)
  | _ => rw [unlessNull, h, Option.map_some]; simp

@[simp] theorem string?_string (s : String) : (string s).string? = some s := rfl

@[simp] theorem unlessNull_null (read : Value → Option α) : unlessNull read null = some none := rfl

@[simp] theorem name?_string (s : String) : (string s).name? = some s := rfl

@[simp] theorem bool?_bool (b : Bool) : (bool b).bool? = some b := rfl

@[simp] theorem unlessNull_string (s : String) : unlessNull string? (string s) = some (some s) :=
  rfl

@[simp] theorem count?_ofCount (n : UInt64) : (ofCount n).count? = some n := by
  have hlt : n.toNat < 2 ^ 64 := n.toNat_lt
  rw [ofCount, count?, if_pos (by omega), Int.toNat_natCast, UInt64.ofNat_toNat]

/-- A value that is null if there is none is read again. -/
theorem unlessNull_orNull {read : Value → Option α} {write : α → Value}
    (h : ∀ x, read (write x) = some x) (hnull : read null = none) (x : Option α) :
    unlessNull read (orNull write x) = some x := by
  cases x with
  | none => rfl
  | some a => exact unlessNull_of_read (h a) hnull

end SqlTree.Value
