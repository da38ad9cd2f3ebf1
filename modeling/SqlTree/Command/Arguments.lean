import SqlTree.Dialect.Basic

/-!
# Command lines

A command line is options, the name of a command, and the options and operands of the command. An
option has a long name and maybe a letter; it is a switch or has a value, which is attached to it or
is the next argument. After `--` all arguments are operands.

* `Invocation.ofArguments?`: the meaning of a command line, if it has one.
-/

namespace SqlTree.Command

/-! ## Options and operands -/

/-- The form of an option. -/
structure OptionForm where
  name : String
  letter : Option Char := none
  hasValue : Bool := true

/-- The first item of a command line: an option with its value, which is empty for a switch, an
operand, or the mark after which all arguments are operands. -/
inductive Item where
  | option (name value : String)
  | operand (text : String)
  | operandsOnly

/-- An item and the arguments after it. -/
structure Taken (rest : List String) where
  item : Item
  left : List String
  length_le : left.length ≤ rest.length

/-- Whether an argument has the form of an option, so that it is no value. -/
def isOption (arg : String) : Bool :=
  match arg.toList with
  | '-' :: _ :: _ => true
  | _ => false

/-- An option whose value is attached to it or the next argument. -/
def takeValue? (form : OptionForm) (attached : Option String) (rest : List String) :
    Option (Taken rest) :=
  match form.hasValue, attached with
  | true, some value => some ⟨.option form.name value, rest, by omega⟩
  | true, none =>
    match rest with
    | [] => none
    | value :: left =>
      if isOption value then none else some ⟨.option form.name value, left, by simp⟩
  | false, some _ => none
  | false, none => some ⟨.option form.name "", rest, by omega⟩

/-- A text before and after its first equals sign. -/
def splitAtEquals (cs : List Char) : String × Option String :=
  (String.ofList (cs.takeWhile (· != '=')),
    match cs.dropWhile (· != '=') with
    | [] => none
    | _ :: value => some (String.ofList value))

/-- The value that is attached to a letter, with or without an equals sign. -/
def attachedToLetter : List Char → Option String
  | [] => none
  | '=' :: cs => some (String.ofList cs)
  | cs => some (String.ofList cs)

/-- The first item of a command line; none if it is no known option. -/
def takeItem? (forms : List OptionForm) (arg : String) (rest : List String) :
    Option (Taken rest) :=
  match arg.toList with
  | ['-', '-'] => some ⟨.operandsOnly, rest, by omega⟩
  | '-' :: '-' :: cs =>
    let (name, attached) := splitAtEquals cs
    (forms.find? fun f => f.name == name).bind fun f => takeValue? f attached rest
  | '-' :: c :: cs =>
    (forms.find? fun f => f.letter == some c).bind fun f =>
      takeValue? f (attachedToLetter cs) rest
  | _ => some ⟨.operand arg, rest, by omega⟩

/-- The options of a command line with their values, and its operands. -/
structure Arguments where
  options : List (String × String) := []
  operands : List String := []

/-- Sorts a command line into options and operands. -/
def sort? (forms : List OptionForm) : List String → Option Arguments
  | [] => some {}
  | arg :: rest =>
    match takeItem? forms arg rest with
    | none => none
    | some ⟨.operandsOnly, left, _⟩ => some { operands := left }
    | some ⟨.option name value, left, _⟩ =>
      (sort? forms left).map fun a => { a with options := (name, value) :: a.options }
    | some ⟨.operand text, left, _⟩ =>
      (sort? forms left).map fun a => { a with operands := text :: a.operands }
termination_by args => args.length
decreasing_by all_goals simp only [List.length_cons]; omega

/-- The options before the first operand, the operand, and the arguments after it. -/
def splitCommand? (forms : List OptionForm) :
    List String → Option (List (String × String) × String × List String)
  | [] => none
  | arg :: rest =>
    match takeItem? forms arg rest with
    | none => none
    | some ⟨.operandsOnly, _, _⟩ => none
    | some ⟨.operand name, left, _⟩ => some ([], name, left)
    | some ⟨.option name value, left, _⟩ =>
      (splitCommand? forms left).map fun (options, command, left) =>
        ((name, value) :: options, command, left)
termination_by args => args.length
decreasing_by all_goals simp only [List.length_cons]; omega

/-- Whether no option is given twice. -/
def isUnambiguous (options : List (String × String)) : Bool :=
  options.all fun o => (options.filter fun o' => o'.1 == o.1).length ≤ 1

/-! ## Commands -/

/-- A row of a pivot table, as far as it was named. -/
structure CellRequest where
  row : Option String := none
  nullRow : Bool := false
  valueName : Option String := none
  /-- The kind of the row's value. -/
  kind : DataKind := .string

/-- What is to be done. -/
inductive Action where
  | render (file : String) (dialect : Option Dialect) (count : Bool)
  | pivot (file : String) (dialect : Option Dialect) (cell : CellRequest)
  | mapped (recordType : String) (dialect : Option Dialect)
  | validate (file : String)
  | dialects

/-- A command, and the file with the settings if one is named. -/
structure Invocation where
  config : Option String
  action : Action

/-- The option for the file with the settings. -/
def configForm : OptionForm := { name := "config", letter := some 'c' }

/-- The option for the dialect. -/
def dialectForm : OptionForm := { name := "dialect", letter := some 'd' }

/-- The options of a command, by its name. -/
def commandForms? : String → Option (List OptionForm)
  | "render" => some [configForm, dialectForm, { name := "count", hasValue := false }]
  | "pivot" =>
    some
      [configForm, dialectForm, { name := "drill-row" },
        { name := "drill-null-row", hasValue := false }, { name := "drill-value" },
        { name := "row-kind" }]
  | "mapped" => some [configForm, dialectForm]
  | "validate" | "dialects" => some [configForm]
  | _ => none

/-- The value of an option that may be missing; if it is there, it has to be readable. -/
def valueOf? {α : Type} (a : Arguments) (name : String) (read : String → Option α) :
    Option (Option α) :=
  match a.options.lookup name with
  | none => some none
  | some value => (read value).map some

/-- Whether an option is there. -/
def has (a : Arguments) (name : String) : Bool := (a.options.lookup name).isSome

/-- A path, which is not empty. -/
def path? (s : String) : Option String := if s = "" then none else some s

/-- The cell that the options name. A row needs a value, and is not both null and not null. -/
def cellRequest? (a : Arguments) : Option CellRequest := do
  let row := a.options.lookup "drill-row"
  let nullRow := has a "drill-null-row"
  let valueName := a.options.lookup "drill-value"
  let kind ← valueOf? a "row-kind" DataKind.ofName?
  if (row.isSome || nullRow) && valueName.isNone then none
  if row.isSome && nullRow then none
  return { row, nullRow, valueName, kind := kind.getD .string }

/-- The command of a name with its options and operands. -/
def action? (name : String) (a : Arguments) : Option Action := do
  let dialect ← valueOf? a "dialect" Dialect.ofName?
  match name, a.operands with
  | "render", [file] => return .render (← path? file) dialect (has a "count")
  | "pivot", [file] => return .pivot (← path? file) dialect (← cellRequest? a)
  | "mapped", [recordType] => return .mapped recordType dialect
  | "validate", [file] => return .validate (← path? file)
  | "dialects", [] => return .dialects
  | _, _ => none

/-- The meaning of a command line. A file with settings that is named after the command counts for
more than one named before it. -/
def Invocation.ofArguments? (args : List String) : Option Invocation := do
  let (before, name, rest) ← splitCommand? [configForm] args
  let forms ← commandForms? name
  let a ← sort? forms rest
  if !(isUnambiguous before && isUnambiguous a.options) then none
  let outer ← valueOf? { options := before } "config" path?
  let inner ← valueOf? a "config" path?
  let action ← action? name a
  return { config := inner <|> outer, action }

end SqlTree.Command
