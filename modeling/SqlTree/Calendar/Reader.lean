import SqlTree.Calendar.Timestamp
import SqlTree.Text.Blank

/-!
# Reading dates and timestamps

Dates are read as `year-month-day`, times as `hour:minute:second` with an optional fraction. Each
number may have blanks in front of it and fewer digits than it is written with; the whole text has
to be used.

* `Date.ofText?`: a date alone;
* `Timestamp.ofText?`: a date and a time, in one of the formats of `TimestampFormat`.
-/

namespace SqlTree.Calendar

/-- The fine points in which the readable timestamps differ. -/
structure TimestampFormat where
  /-- Whether blanks may stand in front of each separator and at the end. -/
  loose : Bool
  /-- The letter between date and time; without one, any number of blanks may stand there. -/
  divider : Option Char

namespace TimestampFormat

/-- Date and time with blanks between them. -/
def spaced : TimestampFormat := ⟨false, none⟩

/-- Date and time with a `T` between them. -/
def lettered : TimestampFormat := ⟨false, some 'T'⟩

/-- Date and time as they are stored: a `T` between them, and blanks in front of separators. -/
def stored : TimestampFormat := ⟨true, some 'T'⟩

end TimestampFormat

/-! ## Fields -/

/-- A number of at most `width` digits, and the rest. -/
def field? (width : Nat) (cs : List Char) : Option (Nat × List Char) :=
  let (ds, rest) := Text.spanDigits width (Text.trimLeft cs)
  (Text.number? ds).map fun n => (n, rest)

/-- A year, and the rest: at most four digits, or any number of digits after a sign. -/
def yearField? (cs : List Char) : Option (Int × List Char) :=
  let signed (sign : Int) (cs : List Char) :=
    let (ds, rest) := Text.spanDigits cs.length cs
    (Text.number? ds).map fun n => (sign * (n : Int), rest)
  match Text.trimLeft cs with
  | '-' :: cs => signed (-1) cs
  | '+' :: cs => signed 1 cs
  | cs => (field? 4 cs).map fun (n, rest) => ((n : Int), rest)

/-- What follows a separator. -/
def separator? (loose : Bool) (c : Char) (cs : List Char) : Option (List Char) :=
  match if loose then Text.trimLeft cs else cs with
  | [] => none
  | d :: rest => if d = c then some rest else none

/-- The nanoseconds that a fraction of a second begins with: its first nine digits. -/
def nanoseconds? (ds : List Char) : Option Nat :=
  let kept := ds.take 9
  (Text.number? kept).map fun n => n * 10 ^ (9 - kept.length)

/-- A fraction of a second in nanoseconds, and the rest; without a point there is none. -/
def fraction? : List Char → Option (Nat × List Char)
  | '.' :: cs =>
    let (ds, rest) := Text.spanDigits cs.length cs
    (nanoseconds? ds).map fun n => (n, rest)
  | cs => some (0, cs)

/-! ## Dates and times -/

/-- The date in front of a text, and the rest. -/
def dateField? (loose : Bool) (cs : List Char) : Option (Date × List Char) := do
  let (year, cs) ← yearField? cs
  let cs ← separator? loose '-' cs
  let (month, cs) ← field? 2 cs
  let cs ← separator? loose '-' cs
  let (day, cs) ← field? 2 cs
  let date ← Date.make? year month day
  return (date, cs)

/-- The time of day in front of a text, and the rest. -/
def timeField? (loose : Bool) (cs : List Char) : Option (TimeOfDay × List Char) := do
  let (hour, cs) ← field? 2 cs
  let cs ← separator? loose ':' cs
  let (minute, cs) ← field? 2 cs
  let cs ← separator? loose ':' cs
  let (second, cs) ← field? 2 cs
  let (nano, cs) ← fraction? cs
  let time ← TimeOfDay.ofClock? hour minute second nano
  return (time, cs)

/-- What follows the place between date and time. -/
def TimestampFormat.divide? (f : TimestampFormat) (cs : List Char) : Option (List Char) :=
  match f.divider with
  | none => some (Text.trimLeft cs)
  | some c => separator? f.loose c cs

/-- Reads a whole text as a date. -/
def Date.ofText? (cs : List Char) : Option Date :=
  match dateField? false cs with
  | some (date, []) => some date
  | _ => none

/-- Reads a whole text as a moment. -/
def Timestamp.ofText? (f : TimestampFormat) (cs : List Char) : Option Timestamp := do
  let (date, cs) ← dateField? f.loose cs
  let cs ← f.divide? cs
  let (time, cs) ← timeField? f.loose cs
  if (if f.loose then Text.trimLeft cs else cs).isEmpty then return ⟨date, time⟩ else none

end SqlTree.Calendar
