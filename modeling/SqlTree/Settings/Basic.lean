import SqlTree.Mapping.Registry
import SqlTree.Settings.Template

/-!
# Settings

What is configured: the dialect to write, the namespace of tables that name none, and the mappings
of record types.

* `Settings.check`: whether every mapping is complete and no record type is mapped twice;
* `Settings.registry`: the mappings, ready for use;
* `Settings.resolvedTableSpace`: the namespace with the values of variables in it.
-/

namespace SqlTree

/-- Why the mappings of a configuration cannot be used. -/
inductive MappingFault where
  /-- A mapping has no record type or no table; mappings are numbered from one. -/
  | incomplete (number : Nat)
  | recordTypeTwice (name : String)
deriving DecidableEq

/-- The text of a fault. -/
def MappingFault.message : MappingFault → String
  | incomplete number =>
    "mapping #" ++ toString number ++ " needs both record_type and table_name"
  | recordTypeTwice name => "record type '" ++ name ++ "' is mapped twice"

/-- Why there are no settings, or no value of one. -/
inductive SettingsError where
  | fileMissing (path : String)
  | fileUnreadable (reason : String)
  /-- The text of a configuration is not one, or a setting has the wrong type. -/
  | malformed
  | variableMissing (name : String)
  | invalid (fault : MappingFault)
deriving DecidableEq

/-- The text of an error. -/
def SettingsError.message : SettingsError → String
  | fileMissing path => "Config file not found: " ++ path
  | fileUnreadable reason => "Failed to read config file: " ++ reason
  | malformed => "Failed to parse config file"
  | variableMissing name => "Missing environment variable: " ++ name
  | invalid fault => "Invalid configuration: " ++ fault.message

/-- Settings. -/
structure Settings where
  dialect : Dialect := .sqlServer
  /-- The namespace of tables that name none, with references to variables. -/
  tableSpace : Option String := none
  mappings : List TableMapping := []

namespace Settings

/-! ## Mappings -/

/-- The faults of mappings that come after those of the record types `seen`, numbered from
`number`. -/
def mappingFaults (seen : List String) (number : Nat) : List TableMapping → List MappingFault
  | [] => []
  | m :: ms =>
    (if m.recordType = "" ∨ m.tableName = "" then [.incomplete number] else []) ++
      (if m.recordType ∈ seen then [.recordTypeTwice m.recordType] else []) ++
      mappingFaults (m.recordType :: seen) (number + 1) ms

/-- Success if the mappings can be used, else their first fault. -/
def check (s : Settings) : Except SettingsError Unit :=
  match mappingFaults [] 1 s.mappings with
  | [] => .ok ()
  | fault :: _ => .error (.invalid fault)

/-- The mappings by record type. -/
def registry (s : Settings) : Registry := .ofList s.mappings

/-! ## Namespace -/

/-- The namespace of tables that name none, with the values of its variables. -/
def resolvedTableSpace (valueOf : String → Option String) (s : Settings) :
    Except SettingsError (Option String) :=
  match s.tableSpace with
  | none => .ok none
  | some text => ((Template.expand valueOf text).mapError .variableMissing).map some

/-- The names of the variables that the settings refer to. -/
def variableNames (s : Settings) : List String := s.tableSpace.toList.flatMap Template.names

/-- The dialect to write: the requested one or, if there is none, the configured one. -/
def dialectFor (s : Settings) (requested : Option Dialect) : Dialect := requested.getD s.dialect

/-- A statement in which the tables of a query that name no namespace are in a given one, unless the
query has its own. -/
def applyTableSpace (tableSpace : Option String) : Statement → Statement
  | .select q => .select { q with tableSpace := q.tableSpace <|> tableSpace }
  | s => s

end Settings

end SqlTree
