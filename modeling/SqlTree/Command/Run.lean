import SqlTree.Command.Arguments
import SqlTree.Data.Json
import SqlTree.Data.Toml.Document
import SqlTree.Pivot.Query
import SqlTree.Stored.Pivot
import SqlTree.Stored.Settings
import SqlTree.Stored.Statement

/-!
# Running commands

What a command line prints. Files and variables are asked for through a `Host`, so that a run is a
function of their contents.

* `Host`: where files and variables come from;
* `Settings.load`: the settings of a file, or of one of the usual places;
* `Command.run`: what a command line prints, or why it fails.
-/

namespace SqlTree

/-- Why a file cannot be read. -/
inductive FileFault where
  | missing
  | isDirectory
  | other (reason : String)

/-- The text of a fault. -/
def FileFault.message : FileFault → String
  | missing => "No such file or directory (os error 2)"
  | isDirectory => "Is a directory (os error 21)"
  | other reason => reason

/-- Where files and variables come from. -/
structure Host (m : Type → Type) where
  read : String → m (Except FileFault String)
  lookup : String → m (Option String)

/-! ## Settings -/

namespace Settings

/-- The settings that a text holds. -/
def ofText (text : String) : Except SettingsError Settings :=
  match (Toml.read? text).bind ofValue? with
  | none => .error .malformed
  | some s => s.check.map fun _ => s

/-- The settings that a file holds, as it was read. -/
def ofFile (path : String) : Except FileFault String → Except SettingsError Settings
  | .ok text => ofText text
  | .error .missing => .error (.fileMissing path)
  | .error fault => .error (.fileUnreadable fault.message)

/-- The variable that names a file with settings. -/
def pathVariable : String := "SQLOM_CONFIG"

/-- The file with settings that need not be there. -/
def localPath : String := "sqlom.toml"

variable {m : Type → Type} [Monad m]

/-- The settings of a file. -/
def fromFile (host : Host m) (path : String) : m (Except SettingsError Settings) := do
  return ofFile path (← host.read path)

/-- The settings of the file that a variable names or else of the local file; without either, the
default ones. -/
def load (host : Host m) : m (Except SettingsError Settings) := do
  match ← host.lookup pathVariable with
  | some path => fromFile host path
  | none =>
    match ← host.read localPath with
    | .error .missing => return .ok {}
    | content => return ofFile localPath content

/-- The namespace of tables that name none, with the values of the host's variables. -/
def tableSpaceOn (host : Host m) (s : Settings) : m (Except SettingsError (Option String)) := do
  let values ← s.variableNames.mapM fun name => do return (name, ← host.lookup name)
  return s.resolvedTableSpace fun name => (values.lookup name).join

end Settings

/-! ## Commands -/

namespace Command

/-- Why a command line prints no result. -/
inductive Failure where
  /-- The command line has no meaning. -/
  | usage
  | settings (e : SettingsError)
  | cellWithoutRow
  | fileUnreadable (file : String) (fault : FileFault)
  | fileMalformed (file : String)
  | notRendered (e : Error)
  | countOfOther (kind : String)
  | notValid (v : Violation)

namespace Failure

/-- The text of a failure. -/
def message : Failure → String
  | usage => "usage"
  | settings e => "Configuration error: " ++ e.message
  | cellWithoutRow => "Error: --drill-value needs --drill-row or --drill-null-row"
  | fileUnreadable file fault => "Error reading file '" ++ file ++ "': " ++ fault.message
  | fileMalformed file => "Error parsing '" ++ file ++ "'"
  | notRendered e => "Render error: " ++ e.message
  | countOfOther kind => "--count needs a select statement, got " ++ kind
  | notValid v => "Validation error: " ++ v.message

/-- The exit status of a failure. -/
def status : Failure → UInt8
  | usage => 2
  | _ => 1

end Failure

/-- What a file holds, as it was read. -/
def decode {α : Type} (ofValue? : Value → Option α) (file : String) :
    Except FileFault String → Except Failure α
  | .error fault => .error (.fileUnreadable file fault)
  | .ok text =>
    match (Json.read? text).bind ofValue? with
    | none => .error (.fileMalformed file)
    | some a => .ok a

/-- The text of a statement or of its row count. -/
def statementText (d : Dialect) (count : Bool) (s : Statement) : Except Failure String :=
  if count then
    match s with
    | .select q => (q.rowCountSql d).mapError .notRendered
    | s => .error (.countOfOther s.kind)
  else (s.sql d).mapError .notRendered

/-- The query for a pivot table, or for one of its cells if a named value is requested. -/
def pivotQuery (p : PivotTable) (cell : CellRequest) : Except Error Select :=
  match cell.valueName with
  | none => p.build
  | some name => do
    let row ← cell.row.mapM (Constant.parse cell.kind)
    p.drillDown row name

/-- The text of the query for all records of a type. -/
def mappedText (s : Settings) (recordType : String) (d : Dialect) : Except Error String := do
  let (q, _) ← s.registry.selectAll recordType .empty
  q.sql d

/-- The report on a statement in a file. -/
def validityText (file : String) (s : Statement) : Except Failure String :=
  match s.validate with
  | .ok () => .ok ("OK: " ++ file ++ " is a valid " ++ s.kind ++ " statement")
  | .error v => .error (.notValid v)

/-- Whether a cell is requested by a named value alone. -/
def CellRequest.isIncomplete (cell : CellRequest) : Bool :=
  cell.valueName.isSome && cell.row.isNone && !cell.nullRow

variable {m : Type → Type} [Monad m]

/-- What a command prints under given settings. -/
def perform (host : Host m) (s : Settings) : Action → m (Except Failure String)
  | .render file dialect count => do
    let content ← host.read file
    let tableSpace ← s.tableSpaceOn host
    return do
      let statement ← decode Statement.ofValue? file content
      let tableSpace ← tableSpace.mapError .settings
      statementText (s.dialectFor dialect) count (Settings.applyTableSpace tableSpace statement)
  | .pivot file dialect cell => do
    if cell.isIncomplete then return .error .cellWithoutRow
    let content ← host.read file
    return do
      let p ← decode PivotTable.ofValue? file content
      let q ← (pivotQuery p cell).mapError .notRendered
      (q.sql (s.dialectFor dialect)).mapError .notRendered
  | .mapped recordType dialect =>
    return (mappedText s recordType (s.dialectFor dialect)).mapError .notRendered
  | .validate file => do
    let content ← host.read file
    return do
      let statement ← decode Statement.ofValue? file content
      validityText file statement
  | .dialects => return .ok ("\n".intercalate (Dialect.all.map Dialect.name))

/-- What a command line prints, without the end of its last line. -/
def run (host : Host m) (args : List String) : m (Except Failure String) := do
  match Invocation.ofArguments? args with
  | none => return .error .usage
  | some i =>
    let settings ← match i.config with
      | some path => Settings.fromFile host path
      | none => Settings.load host
    match settings with
    | .error e => return .error (.settings e)
    | .ok s => perform host s i.action

end Command

end SqlTree
