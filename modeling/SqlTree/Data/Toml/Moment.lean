import SqlTree.Calendar.Reader

/-!
# Dates and times in TOML texts

A moment is a date, a time, or both with an optional zone. Every number has a fixed number of
digits; the seconds of a time may be left out.

* `Toml.isMoment`: whether a word is a moment.
-/

namespace SqlTree.Toml

/-- A number of exactly `width` digits, and the rest. -/
def takeNumber? (width : Nat) (cs : List Char) : Option (Nat × List Char) :=
  let (ds, rest) := Text.spanDigits width cs
  if ds.length = width then (Text.number? ds).map fun n => (n, rest) else none

/-- The rest after a character. -/
def takeChar? (c : Char) : List Char → Option (List Char)
  | [] => none
  | d :: rest => if d = c then some rest else none

/-- What follows a date: four, two and two digits that name a day. -/
def afterDate? (cs : List Char) : Option (List Char) := do
  let (year, cs) ← takeNumber? 4 cs
  let cs ← takeChar? '-' cs
  let (month, cs) ← takeNumber? 2 cs
  let cs ← takeChar? '-' cs
  let (day, cs) ← takeNumber? 2 cs
  (Calendar.Date.make? year month day).map fun _ => cs

/-- The optional seconds of a time with an optional fraction, and the rest. -/
def takeSeconds? : List Char → Option ((Nat × Nat) × List Char)
  | ':' :: cs => do
    let (second, cs) ← takeNumber? 2 cs
    let (nano, cs) ← Calendar.fraction? cs
    return ((second, nano), cs)
  | cs => some ((0, 0), cs)

/-- Hour and minute, and the rest. -/
def takeHourMinute? (cs : List Char) : Option ((Nat × Nat) × List Char) := do
  let (hour, cs) ← takeNumber? 2 cs
  let cs ← takeChar? ':' cs
  let (minute, cs) ← takeNumber? 2 cs
  return ((hour, minute), cs)

/-- What follows a time of day. -/
def afterTime? (cs : List Char) : Option (List Char) := do
  let ((hour, minute), cs) ← takeHourMinute? cs
  let ((second, nano), cs) ← takeSeconds? cs
  (Calendar.TimeOfDay.ofClock? hour minute second nano).map fun _ => cs

/-- Whether a text is an optional zone: `Z`, or a distance in hours and minutes. -/
def isZone : List Char → Bool
  | [] => true
  | c :: cs =>
    if c = 'Z' ∨ c = 'z' then cs.isEmpty
    else if c = '+' ∨ c = '-' then
      match takeHourMinute? cs with
      | some ((hour, minute), []) => hour < 24 && minute < 60
      | _ => false
    else false

/-- Whether a text is a time of day with an optional zone. -/
def isZonedTime (cs : List Char) : Bool :=
  match afterTime? cs with
  | some zone => isZone zone
  | none => false

/-- Whether a text is a date, a time, or a date and a time with an optional zone. -/
def isMoment (cs : List Char) : Bool :=
  match afterDate? cs with
  | some [] => true
  | some (c :: rest) => (c == 'T' || c == 't' || c == ' ') && isZonedTime rest
  | none => afterTime? cs == some []

end SqlTree.Toml
