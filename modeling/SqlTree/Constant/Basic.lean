import SqlTree.Calendar.Timestamp
import SqlTree.Constant.Guid
import SqlTree.Number.Decimal

/-!
# Constants

The typed values that statements carry. A constant has exactly one kind, which is the kind of the
value it holds.
-/

namespace SqlTree

/-- The kinds of constants. -/
inductive DataKind where
  | boolean
  | string
  | number
  | date
  | binary
  | guid
deriving DecidableEq, Repr

namespace DataKind

/-- All kinds. -/
def all : List DataKind := [.boolean, .string, .number, .date, .binary, .guid]

/-- The name of a kind. -/
def name : DataKind → String
  | boolean => "boolean"
  | string => "string"
  | number => "number"
  | date => "date"
  | binary => "binary"
  | guid => "guid"

/-- The kind of a name. -/
def ofName? (s : String) : Option DataKind := all.find? fun k => k.name == s

theorem ofName?_name (k : DataKind) : ofName? k.name = some k := by cases k <;> rfl

end DataKind

/-- A number: an integer of 64 bits, a float of 64 bits, or a decimal that keeps its places. -/
inductive Number where
  | int (n : Int64)
  | float (x : Float)
  | decimal (d : Number.Decimal)
deriving DecidableEq

/-- Whether a number is neither infinite nor undefined. -/
def Number.isFinite : Number → Bool
  | .float x => x.isFinite
  | .int _ | .decimal _ => true

/-- A typed value. A date always has a time of day, which is midnight if none was given. -/
inductive Constant where
  | boolean (b : Bool)
  | string (s : String)
  | number (n : Number)
  | date (t : Calendar.Timestamp)
  | binary (bytes : List UInt8)
  | guid (g : Guid)
deriving DecidableEq

namespace Constant

/-- The kind of a constant. -/
def kind : Constant → DataKind
  | boolean _ => .boolean
  | string _ => .string
  | number _ => .number
  | date _ => .date
  | binary _ => .binary
  | guid _ => .guid

/-- Whether a constant is a date without a time of day. -/
def isDateOnly : Constant → Bool
  | date t => t.isMidnight
  | _ => false

/-- Whether a constant is no number, or a finite one. -/
def isFinite : Constant → Bool
  | number n => n.isFinite
  | _ => true

end Constant

end SqlTree
