import SqlTree.Constant.Reader
import SqlTree.Data.Value

/-!
# Stored constants

A constant is stored as an object with its kind and its value. Integers and floats are stored as
numbers of their own sort, decimals and dates as texts, bytes as a list of numbers. A float that is
not finite is no number of a text, so null is stored in its place, which is not read as a number.

* `Constant.toValue`, `Constant.ofValue?`: writing and reading constants.
-/

namespace SqlTree

/-- A number as a value. -/
def Number.toValue : Number → Value
  | .int n => .int n.toInt
  | .float x => if x.isFinite then .float x else .null
  | .decimal d => .string d.text

/-- A stored number. A whole number beyond the integers of 64 bits is a float, a text a decimal. -/
def Number.ofValue? : Value → Option Number
  | .int n =>
    if Number.fitsInt64 n then some (.int (Int64.ofInt n))
    else some (.float (UInt64.ofNat n.toNat).toFloat)
  | .float x => some (.float x)
  | .string s => (Number.Decimal.ofText? s.toList).map .decimal
  | _ => none

namespace Constant

/-- The value of a constant without its kind. -/
def content : Constant → Value
  | boolean b => .bool b
  | string s => .string s
  | number n => n.toValue
  | date t => .string (t.text 'T')
  | binary bytes => .array (bytes.map fun b => .int b.toNat)
  | guid g => .string g.text

/-- A constant as an object. -/
def toValue (c : Constant) : Value :=
  .object [("kind", .string c.kind.name), ("value", c.content)]

/-- The constant of a kind that a value holds. -/
def ofContent? (kind : DataKind) (v : Value) : Option Constant :=
  match kind with
  | .boolean => v.bool?.map .boolean
  | .string => v.string?.map .string
  | .number => (Number.ofValue? v).map .number
  | .date =>
    v.string?.bind fun s => (Calendar.Timestamp.ofText? .stored s.toList).map .date
  | .binary => (v.list fun w _ => w.byte?).map .binary
  | .guid => v.string?.bind fun s => (Guid.ofText? s.toList).map .guid

/-- Reads a stored constant. -/
def ofValue? (v : Value) : Option Constant := do
  let ⟨r, _⟩ ← v.record? ["kind", "value"]
  let kind ← r.required "kind" fun w _ => w.name?.bind DataKind.ofName?
  r.required "value" fun w _ => ofContent? kind w

end Constant

end SqlTree
