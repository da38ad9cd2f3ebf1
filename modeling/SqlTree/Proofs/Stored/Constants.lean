import SqlTree.Proofs.Stored.Records
import SqlTree.Proofs.Text.Decimals
import SqlTree.Proofs.Text.Guids
import SqlTree.Proofs.Text.Timestamps
import SqlTree.Stored.Constant

/-!
# Reading stored constants

A stored constant is read again as the constant, with its kind: integers stay integers, floats stay
floats also where they are whole, and decimals keep their places. Only the sign of a decimal zero is
not read, and a leap second inside a minute is read as the second behind it. A float that is not
finite is not read at all.

* `Constant.asStored`: a constant as it is read from its stored form.

Results:
* `Constant.ofValue?_toValue`: finite constants are read again.
* `Constant.ofValue?_toValue_of_infinite`: the other ones are not.
-/

namespace SqlTree

/-- A constant as it is read from its stored form: a decimal zero without a minus sign, and a date
as it is read from its text. -/
def Constant.asStored : Constant → Constant
  | .number (.decimal d) => .number (.decimal d.withoutZeroSign)
  | .date t => .date t.asRead
  | c => c

theorem fitsInt64_toInt (n : Int64) : Number.fitsInt64 n.toInt = true := by
  have hle := n.le_toInt
  have hlt := n.toInt_lt
  simp only [Number.fitsInt64, Bool.and_eq_true, decide_eq_true_eq]
  exact ⟨hle, hlt⟩

theorem toInt_ofInt_of_fitsInt64 {n : Int} (h : Number.fitsInt64 n = true) :
    (Int64.ofInt n).toInt = n := by
  simp only [Number.fitsInt64, Bool.and_eq_true, decide_eq_true_eq] at h
  exact Int64.toInt_ofInt_of_le h.1 h.2

theorem byte?_toNat (b : UInt8) : (Value.int b.toNat).byte? = some b := by
  have hlt : b.toNat < 2 ^ 8 := b.toNat_lt
  rw [Value.byte?, if_pos (by omega), Int.toNat_natCast, UInt8.ofNat_toNat]

namespace Constant

variable {c : Constant}

/-- The value of a finite constant is read again for its kind. -/
theorem ofContent?_content (h : c.isFinite = true) :
    ofContent? c.kind c.content = some c.asStored := by
  cases c with
  | boolean b => rfl
  | string s => rfl
  | number n =>
    cases n with
    | int n =>
      simp [kind, content, ofContent?, Number.toValue, Number.ofValue?, fitsInt64_toInt, asStored]
    | float x =>
      have hfinite : x.isFinite = true := h
      simp [kind, content, ofContent?, Number.toValue, Number.ofValue?, hfinite, asStored]
    | decimal d =>
      simp [kind, content, ofContent?, Number.toValue, Number.ofValue?,
        Number.Decimal.ofText?_text, asStored]
  | date t => simp [kind, content, ofContent?, Calendar.Timestamp.ofText?_text, asStored]
  | binary bytes =>
    have hbytes := Value.mapM_map_of_inverse byte?_toNat bytes
    simp [kind, content, ofContent?, hbytes, asStored]
  | guid g => simp [kind, content, ofContent?, Guid.ofText?_text, asStored]

/-- In place of a float that is not finite there is null, which is no number. -/
theorem ofContent?_content_of_infinite (h : c.isFinite = false) :
    ofContent? c.kind c.content = none := by
  cases c with
  | number n =>
    cases n with
    | float x =>
      have hinfinite : x.isFinite = false := h
      simp [kind, content, ofContent?, Number.toValue, Number.ofValue?, hinfinite]
    | _ => simp [isFinite, Number.isFinite] at h
  | _ => simp [isFinite] at h

theorem ofValue?_toValue_eq (c : Constant) : ofValue? c.toValue = ofContent? c.kind c.content := by
  rw [ofValue?, toValue, Value.record?_bind (by simp)]
  simp [DataKind.ofName?_name]

/-- A stored constant is read again if it is finite. -/
theorem ofValue?_toValue (h : c.isFinite = true) : ofValue? c.toValue = some c.asStored := by
  rw [ofValue?_toValue_eq, ofContent?_content h]

theorem ofValue?_toValue_of_infinite (h : c.isFinite = false) : ofValue? c.toValue = none := by
  rw [ofValue?_toValue_eq, ofContent?_content_of_infinite h]

end Constant

end SqlTree
