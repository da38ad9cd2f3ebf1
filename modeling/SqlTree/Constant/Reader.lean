import SqlTree.Calendar.Reader
import SqlTree.Constant.Basic
import SqlTree.Error
import SqlTree.Number.Range

/-!
# Making constants

Constants from numbers, from the parts of dates, and from texts of a declared kind. What does not
denote a value of the kind is refused, with the reason.

* `Constant.float`, `Constant.day`, `Constant.moment`: from values that may be out of range;
* `Constant.parse`: from a text;
* `Constant.expectKind`: the constant itself, if it has the declared kind.
-/

namespace SqlTree.Constant

/-- A finite float. -/
def float (x : Float) : Except Error Constant :=
  if x.isFinite then .ok (.number (.float x))
  else .error (.invalidConstant .number (.notFinite x))

/-- A day of the calendar. -/
def day (year : Int) (month day : Nat) : Except Error Constant :=
  match Calendar.Date.make? year month day with
  | some d => .ok (.date (.startOf d))
  | none => .error (.invalidConstant .date (.noSuchDay year month day))

/-- A moment in whole seconds, without leap seconds. -/
def moment (year : Int) (month day hour minute second : Nat) : Except Error Constant :=
  match Calendar.Date.make? year month day, Calendar.TimeOfDay.make? hour minute second 0 with
  | some d, some t => .ok (.date ⟨d, t⟩)
  | _, _ => .error (.invalidConstant .date (.noSuchTime year month day hour minute second))

/-! ## From text -/

/-- A truth value: `true` or `1`, `false` or `0`, in any letter case. -/
def boolean? (s : String) : Option Bool :=
  let word := s.toLower
  if word = "true" ∨ word = "1" then some true
  else if word = "false" ∨ word = "0" then some false
  else none

/-- A number: an integer if it is one and fits, else a decimal. -/
def number? (cs : List Char) : Option Number :=
  match Text.integer? cs with
  | some n =>
    if Number.fitsInt64 n then some (.int (Int64.ofInt n))
    else (Number.Decimal.ofText? cs).map .decimal
  | none => (Number.Decimal.ofText? cs).map .decimal

/-- A moment with blanks or a `T` before its time, or a date alone. -/
def date? (cs : List Char) : Option Calendar.Timestamp :=
  Calendar.Timestamp.ofText? .spaced cs <|> Calendar.Timestamp.ofText? .lettered cs <|>
    (Calendar.Date.ofText? cs).map .startOf

/-- The characters without an optional hexadecimal prefix. -/
def dropHexMark : List Char → List Char
  | '0' :: 'x' :: cs => cs
  | '0' :: 'X' :: cs => cs
  | cs => cs

/-- The constant of a kind that a text denotes, blanks around it apart. -/
def ofText? (kind : DataKind) (s : String) : Option Constant :=
  match kind with
  | .boolean => (boolean? s).map .boolean
  | .string => some (.string s)
  | .number => (number? s.toList).map .number
  | .date => (date? s.toList).map .date
  | .binary => (Text.hexBytes? (dropHexMark s.toList)).map .binary
  | .guid => (Guid.ofText? s.toList).map .guid

/-- Reads a text as a constant of a kind; blanks around the text do not count. -/
def parse (kind : DataKind) (text : String) : Except Error Constant :=
  match ofText? kind (Text.trim text) with
  | some c => .ok c
  | none => .error (.invalidConstant kind (.unreadable (Text.trim text)))

/-- The constant itself, if it has the declared kind. -/
def expectKind (c : Constant) (kind : DataKind) : Except Error Constant :=
  if c.kind = kind then .ok c else .error (.invalidConstant kind (.kindDiffers c.kind))

end SqlTree.Constant
