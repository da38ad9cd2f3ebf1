import SqlTree.Number.FloatText

/-!
# Data values

The values that stored statements and configurations are made of: null, truth values, numbers,
strings, lists, and objects whose fields keep their order. Whole numbers and floats are different
values, even where they are equal as numbers. A part of a text that stands for none of these is
unreadable: no reader accepts it, but a record may hold it in a field that its reader ignores.

* `Value.isReadable`: whether no part of a value is unreadable;
* `Value.field?`: the value of a field;
* `Value.record?`: a record as an object, from an object or a list;
* `Value.optional`, `Value.required`, `Value.withDefault`: how the fields of a record are read;
* `Value.variant?`: the name and the content of an alternative.
-/

namespace SqlTree

/-- A data value. -/
inductive Value where
  | null
  | bool (b : Bool)
  | int (n : Int)
  | float (x : Float)
  | string (s : String)
  | array (items : List Value)
  | object (fields : List (String × Value))
  | unreadable

namespace Value

instance : Inhabited Value := ⟨.null⟩

/-! ## Sizes

Readers of nested values follow the parts of a value; a part is smaller than the whole. -/

mutual

/-- The number of values and fields in a value. -/
def size : Value → Nat
  | .array items => 1 + sizeOfAll items
  | .object fields => 1 + sizeOfFields fields
  | _ => 1

/-- The size of all values of a list. -/
def sizeOfAll : List Value → Nat
  | [] => 0
  | v :: vs => 1 + v.size + sizeOfAll vs

/-- The size of the values of all fields. -/
def sizeOfFields : List (String × Value) → Nat
  | [] => 0
  | (_, v) :: fields => 1 + v.size + sizeOfFields fields

end

mutual

/-- Whether no part of a value is unreadable. -/
def isReadable : Value → Bool
  | .array items => areReadable items
  | .object fields => haveReadable fields
  | .unreadable => false
  | _ => true

/-- Whether all values of a list are readable. -/
def areReadable : List Value → Bool
  | [] => true
  | v :: vs => v.isReadable && areReadable vs

/-- Whether the values of all fields are readable. -/
def haveReadable : List (String × Value) → Bool
  | [] => true
  | (_, v) :: fields => v.isReadable && haveReadable fields

end

theorem size_lt_of_mem {v : Value} {vs : List Value} (h : v ∈ vs) : v.size < sizeOfAll vs := by
  induction vs with
  | nil => cases h
  | cons w ws ih =>
    simp only [sizeOfAll]
    rcases List.mem_cons.1 h with rfl | h
    · omega
    · have := ih h
      omega

theorem size_lt_of_lookup {k : String} {v : Value} {fields : List (String × Value)}
    (h : fields.lookup k = some v) : v.size < sizeOfFields fields := by
  induction fields with
  | nil => simp at h
  | cons f fs ih =>
    obtain ⟨k', w⟩ := f
    simp only [sizeOfFields]
    rw [List.lookup_cons] at h
    split at h
    · cases h
      omega
    · have := ih h
      omega

theorem sizeOfFields_zip_le (ks : List String) (vs : List Value) :
    sizeOfFields (ks.zip vs) ≤ sizeOfAll vs := by
  induction vs generalizing ks with
  | nil => simp [sizeOfFields, sizeOfAll]
  | cons v vs ih =>
    cases ks with
    | nil => simp [sizeOfFields]
    | cons k ks =>
      have := ih ks
      simp only [List.zip_cons_cons, sizeOfFields, sizeOfAll]
      omega

/-! ## Parts -/

/-- The value of a field of an object, with the proof that it is smaller. -/
def field? (v : Value) (k : String) : Option { w : Value // w.size < v.size } :=
  match v with
  | .object fields =>
    match h : fields.lookup k with
    | some w =>
      some ⟨w, by
        have := size_lt_of_lookup h
        simp only [size]
        omega⟩
    | none => none
  | _ => none

/-- Whether a key occurs at most once among the fields of an object. -/
def hasUnique (v : Value) (k : String) : Bool :=
  match v with
  | .object fields => (fields.filter fun f => f.1 == k).length ≤ 1
  | _ => false

/-- A value that is an object in which each of the keys occurs at most once. -/
def isRecord (v : Value) (keys : List String) : Bool :=
  match v with
  | .object _ => keys.all v.hasUnique
  | _ => false

/-- A record as an object: an object in which each of the keys occurs at most once, or a list of the
values of the first keys. -/
def record? (v : Value) (keys : List String) : Option { w : Value // w.size ≤ v.size } :=
  match v with
  | .object fields =>
    if keys.all (Value.object fields).hasUnique then some ⟨.object fields, Nat.le_refl _⟩ else none
  | .array items =>
    if items.length ≤ keys.length then
      some ⟨.object (keys.zip items), by
        have := sizeOfFields_zip_le keys items
        simp only [size]
        omega⟩
    else none
  | _ => none

/-- The name and the content of an alternative: a name alone, which has null as its content, or an
object with one field. -/
def variant? (v : Value) : Option (String × Option { w : Value // w.size < v.size }) :=
  match v with
  | .string name => some (name, none)
  | .object [(name, w)] =>
    some (name, some ⟨w, by simp only [size, sizeOfFields]; omega⟩)
  | _ => none

/-! ## Reading fields

The reader of a part is told that the part is smaller, so that readers may be recursive. -/

/-- A field that has to be there. -/
def required {α : Type} (v : Value) (k : String)
    (read : (w : Value) → w.size < v.size → Option α) : Option α :=
  match v.field? k with
  | some ⟨w, h⟩ => read w h
  | none => none

/-- A field that may be missing or null. -/
def optional {α : Type} (v : Value) (k : String)
    (read : (w : Value) → w.size < v.size → Option α) : Option (Option α) :=
  match v.field? k with
  | none => some none
  | some ⟨.null, _⟩ => some none
  | some ⟨w, h⟩ => (read w h).map some

/-- A field that may be missing, but not null. -/
def withDefault {α : Type} (v : Value) (k : String) (default : α)
    (read : (w : Value) → w.size < v.size → Option α) : Option α :=
  match v.field? k with
  | none => some default
  | some ⟨w, h⟩ => read w h

/-- Reads all values of a list of parts. -/
def readAll {α : Type} (limit : Nat) (read : (w : Value) → w.size < limit → Option α) :
    (vs : List Value) → (∀ w ∈ vs, w.size < limit) → Option (List α)
  | [], _ => some []
  | v :: vs, h =>
    match read v (h v (by simp)), readAll limit read vs fun w hw => h w (by simp [hw]) with
    | some x, some xs => some (x :: xs)
    | _, _ => none

/-- A value that is a list, with all its parts read. -/
def list {α : Type} (v : Value) (read : (w : Value) → w.size < v.size → Option α) :
    Option (List α) :=
  match v with
  | .array items =>
    readAll (Value.array items).size read items fun w hw => by
      have := size_lt_of_mem hw
      simp only [size]
      omega
  | _ => none

/-! ## Simple values -/

/-- A string. -/
def string? : Value → Option String
  | .string s => some s
  | _ => none

/-- A truth value. -/
def bool? : Value → Option Bool
  | .bool b => some b
  | _ => none

/-- A whole number between zero and the largest word of 64 bits. -/
def count? : Value → Option UInt64
  | .int n => if 0 ≤ n ∧ n < 2 ^ 64 then some (UInt64.ofNat n.toNat) else none
  | _ => none

/-- A byte. -/
def byte? : Value → Option UInt8
  | .int n => if 0 ≤ n ∧ n < 2 ^ 8 then some (UInt8.ofNat n.toNat) else none
  | _ => none

/-- The name of an alternative without content. -/
def name? (v : Value) : Option String :=
  match v.variant? with
  | some (name, none) => some name
  | some (name, some ⟨.null, _⟩) => some name
  | _ => none

/-! ## Writing records -/

/-- A field that is left out if it has no value. -/
def fieldIfSome {α : Type} (k : String) (write : α → Value) (x : Option α) :
    List (String × Value) :=
  match x with
  | none => []
  | some a => [(k, write a)]

/-- A value, or null. -/
def orNull {α : Type} (write : α → Value) (x : Option α) : Value :=
  match x with
  | none => .null
  | some a => write a

/-- A row count as a value. -/
def ofCount (n : UInt64) : Value := .int n.toNat

/-- An alternative with content. -/
def tagged (name : String) (content : Value) : Value := .object [(name, content)]

end Value

end SqlTree
