import SqlTree.Data.Value

/-!
# Tables under construction

The tables of a TOML text grow line by line: a header opens a table at a path of keys, and an
assignment gives a key a value. No key gets two values, and no table is opened twice.

* `Toml.assign?`: a value at a path of keys;
* `Toml.openTable?`, `Toml.openElement?`: a table, or a further table of a list, at a path;
* `Toml.atTable?`: a change of the table at a path.
-/

namespace SqlTree.Toml

/-- What made a table. -/
inductive Origin where
  /-- A longer path in a header. -/
  | implied
  /-- A header of its own. -/
  | header
  /-- A longer path in an assignment. -/
  | dotted
deriving DecidableEq

/-- What a key stands for: a value that does not change, a table, or a list of tables with the
last one first. -/
inductive Node where
  | value (v : Value)
  | table (origin : Origin) (entries : List (String × Node))
  | elements (tables : List (List (String × Node)))

/-- The keys of a table and what they stand for. -/
abbrev Entries := List (String × Node)

/-- The entries with another node for a key. -/
def replace (es : Entries) (k : String) (n : Node) : Entries :=
  es.map fun e => if e.1 = k then (k, n) else e

/-- Whether a path may pass through what a key stands for. A path in a header passes through all
tables. A path in an assignment may not pass through a table with a header of its own, and the last
key on it is in a table that an assignment made. -/
def mayPass (assigning last : Bool) : Option Node → Bool
  | none => true
  | some (.table origin _) => !assigning || (if last then origin == .dotted else origin != .header)
  | some (.elements _) => !assigning || !last
  | some (.value _) => false

/-- The tables in which the last table of a list is changed. -/
def changeLast? (f : Entries → Option Entries) : List Entries → Option (List Entries)
  | [] => none
  | last :: earlier => (f last).map (· :: earlier)

/-- The node for a key after a change of the table that it stands for. A missing table is made. -/
def changeNode? (assigning : Bool) (f : Entries → Option Entries) : Option Node → Option Node
  | none => (f []).map (.table (if assigning then .dotted else .implied))
  | some (.table origin es) => (f es).map (.table origin)
  | some (.elements tables) => (changeLast? f tables).map .elements
  | some (.value _) => none

/-- The entries after a change of what a key stands for. -/
def changeEntry? (es : Entries) (k : String) (f : Option Node → Option Node) : Option Entries :=
  match es.lookup k with
  | none => (f none).map fun n => es ++ [(k, n)]
  | some old => (f (some old)).map (replace es k)

/-- The entries after a change of the last key on a path. -/
def atPath? (assigning : Bool) (f : Option Node → Option Node) (es : Entries) :
    List String → Option Entries
  | [] => none
  | [k] => changeEntry? es k f
  | k :: k' :: rest =>
    changeEntry? es k fun node =>
      if mayPass assigning rest.isEmpty node then
        changeNode? assigning (fun inner => atPath? assigning f inner (k' :: rest)) node
      else none

/-- The entries after a change of the table at a path of headers. -/
def atTable? (f : Entries → Option Entries) (es : Entries) : List String → Option Entries
  | [] => f es
  | path => atPath? false (changeNode? false f) es path

/-- A value for a key that has none. -/
def assignNode? (v : Value) : Option Node → Option Node
  | none => some (.value v)
  | some _ => none

/-- The entries with a value at a path. -/
def assign? (es : Entries) (path : List String) (v : Value) : Option Entries :=
  atPath? true (assignNode? v) es path

/-- A table that has no header yet. -/
def openNode? : Option Node → Option Node
  | none => some (.table .header [])
  | some (.table .implied es) => some (.table .header es)
  | some _ => none

/-- The entries with a table at a path. -/
def openTable? (es : Entries) (path : List String) : Option Entries :=
  atPath? false openNode? es path

/-- One more table of a list. -/
def openElementNode? : Option Node → Option Node
  | none => some (.elements [[]])
  | some (.elements tables) => some (.elements ([] :: tables))
  | some _ => none

/-- The entries with one more table in the list at a path. -/
def openElement? (es : Entries) (path : List String) : Option Entries :=
  atPath? false openElementNode? es path

/-! ## Finished tables -/

mutual

/-- The value of a node. -/
def Node.toValue : Node → Value
  | .value v => v
  | .table _ es => .object (fieldsOf es)
  | .elements tables => .array (objectsOf tables).reverse

/-- The fields of entries. -/
def fieldsOf : List (String × Node) → List (String × Value)
  | [] => []
  | (k, n) :: es => (k, n.toValue) :: fieldsOf es

/-- The objects of tables. -/
def objectsOf : List (List (String × Node)) → List Value
  | [] => []
  | es :: rest => .object (fieldsOf es) :: objectsOf rest

end

end SqlTree.Toml
