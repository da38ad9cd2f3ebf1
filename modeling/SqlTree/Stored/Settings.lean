import SqlTree.Settings.Basic
import SqlTree.Stored.Mapping

/-!
# Stored settings

The stored form of settings: a group for rendering and a list of mappings. Every part may be left
out; it then has its default.
-/

namespace SqlTree.Settings

/-- The group for rendering as an object. -/
def renderToValue (s : Settings) : Value :=
  .object
    [("dialect", .string s.dialect.name), ("table_space", .orNull .string s.tableSpace)]

/-- Settings as an object. -/
def toValue (s : Settings) : Value :=
  .object
    [("render", s.renderToValue), ("mappings", .array (s.mappings.map TableMapping.toValue))]

/-- The name of an alternative: a string, or the only key of a table, under which there is
nothing. -/
def bareName? : Value → Option String
  | .string name => some name
  | .object [(name, .object [])] => some name
  | .object [(name, .array [])] => some name
  | _ => none

/-- Reads the stored group for rendering. -/
def renderOfValue? (v : Value) : Option (Dialect × Option String) := do
  let ⟨r, _⟩ ← v.record? ["dialect", "table_space"]
  let dialect ← r.withDefault "dialect" .sqlServer fun w _ =>
    (bareName? w).bind Dialect.ofName?
  let tableSpace ← r.optional "table_space" fun w _ => w.string?
  return (dialect, tableSpace)

/-- Reads stored settings. -/
def ofValue? (v : Value) : Option Settings := do
  let ⟨r, _⟩ ← v.record? ["render", "mappings"]
  let (dialect, tableSpace) ← r.withDefault "render" (.sqlServer, none) fun w _ =>
    renderOfValue? w
  let mappings ← r.withDefault "mappings" [] fun w _ => w.list fun x _ => TableMapping.ofValue? x
  return { dialect, tableSpace, mappings }

end SqlTree.Settings
