import SqlTree.Text.Hex
import SqlTree.Text.Quoted
import SqlTree.Constant.Basic
import SqlTree.Number.FloatText

/-!
# Dialects

The four databases that statements are written for, and what sets their SQL apart: how names and
values are written, how rows are limited, and which constructs exist.
-/

namespace SqlTree

/-- A database whose SQL can be written. -/
inductive Dialect where
  | sqlServer
  | oracle
  | mySql
  | postgres
deriving DecidableEq, Repr

/-- How a dialect restricts a query to one page of rows. -/
inductive PagingStyle where
  /-- Rows are numbered in a block around the query. -/
  | numberedBlocks
  /-- A trailing clause names limit and offset. -/
  | trailingClause
deriving DecidableEq

/-- Where a limit on all rows is written. -/
inductive TopPlace where
  | afterSelect
  | trailing
deriving DecidableEq

/-- How a cube or rollup is attached to the group keys. -/
inductive GroupModifierStyle where
  | suffix
  | wrapped
deriving DecidableEq

namespace Dialect

/-- All dialects. -/
def all : List Dialect := [sqlServer, oracle, mySql, postgres]

/-- The name of a dialect. -/
def name : Dialect → String
  | sqlServer => "sqlserver"
  | oracle => "oracle"
  | mySql => "mysql"
  | postgres => "postgres"

/-- The dialect of a name. -/
def ofName? (s : String) : Option Dialect := all.find? fun d => d.name == s

theorem ofName?_name (d : Dialect) : ofName? d.name = some d := by cases d <;> rfl

/-- Other spellings of the names. -/
def spellings : List (String × Dialect) :=
  [("mssql", sqlServer), ("tsql", sqlServer), ("postgresql", postgres), ("pg", postgres)]

/-- The dialect of a name or another spelling, in any case of the ASCII letters. -/
def ofText? (s : String) : Option Dialect := ofName? s.toLower <|> spellings.lookup s.toLower

/-! ## Constructs -/

/-- How a page of rows is selected. -/
def pagingStyle : Dialect → PagingStyle
  | sqlServer | oracle => .numberedBlocks
  | mySql | postgres => .trailingClause

/-- Where a limit on all rows is written. -/
def topPlace : Dialect → TopPlace
  | sqlServer => .afterSelect
  | oracle | mySql | postgres => .trailing

/-- How a cube or rollup is attached to the group keys. -/
def groupModifierStyle : Dialect → GroupModifierStyle
  | sqlServer | mySql => .suffix
  | oracle | postgres => .wrapped

/-- Whether groups may have a cube. -/
def hasCube (d : Dialect) : Bool := d != mySql

/-- Whether there are full outer joins. -/
def hasFullJoin (d : Dialect) : Bool := d != mySql

/-- Whether the word `AS` may stand before the alias of a source. -/
def hasSourceAs (d : Dialect) : Bool := d != oracle

/-- Whether one insert may list several rows of values. -/
def hasRowLists (d : Dialect) : Bool := d != oracle

/-- The function that replaces a null by a fallback. -/
def ifNullFunction : Dialect → String
  | sqlServer => "ISNULL"
  | oracle => "NVL"
  | mySql => "IFNULL"
  | postgres => "COALESCE"

/-! ## Names -/

/-- The characters between which a name is written. -/
def nameQuotes : Dialect → Char × Char
  | sqlServer => ('[', ']')
  | mySql => ('\x60', '\x60')
  | oracle | postgres => ('\x22', '\x22')

/-- A name in quotes. -/
def nameText (d : Dialect) (name : String) : String :=
  Text.quoted d.nameQuotes.1 d.nameQuotes.2 name

/-- The mark in front of a parameter's name. -/
def parameterMark : Dialect → Char
  | sqlServer | mySql => '@'
  | oracle | postgres => ':'

/-- Whether a character marks a parameter in some dialect. -/
def isParameterMark (c : Char) : Bool := c == '@' || c == ':' || c == '?' || c == '$'

/-- A parameter. A name that begins with a mark already is written as it is. -/
def parameterText (d : Dialect) (name : String) : String :=
  match name.toList with
  | [] => String.singleton d.parameterMark
  | c :: cs => if isParameterMark c then name else String.ofList (d.parameterMark :: c :: cs)

/-! ## Values -/

/-- Whether all characters are in ASCII. -/
def isAscii (s : String) : Bool := s.toList.all fun c => c.toNat < 128

/-- A string literal. SQL Server marks strings outside ASCII as national. -/
def stringText (d : Dialect) (s : String) : String :=
  let plain := Text.quoted '\x27' '\x27' s
  if d = sqlServer ∧ isAscii s = false then "N" ++ plain else plain

/-- A truth value. -/
def booleanText : Dialect → Bool → String
  | postgres, b => if b then "TRUE" else "FALSE"
  | _, b => if b then "1" else "0"

/-- A literal of bytes in hexadecimal digits. -/
def binaryText (d : Dialect) (bytes : List UInt8) : String :=
  let hex := String.ofList (Text.hexBytes bytes)
  match d with
  | sqlServer => "0x" ++ hex
  | oracle => "HEXTORAW('" ++ hex ++ "')"
  | mySql => "X'" ++ hex ++ "'"
  | postgres => "DECODE('" ++ hex ++ "', 'hex')"

/-- Whether date literals begin with the word for their type. -/
def hasTypedDates (d : Dialect) : Bool := d = oracle ∨ d = postgres

/-- A literal of a moment; at midnight it is a date alone. -/
def dateText (d : Dialect) (t : Calendar.Timestamp) : String :=
  if t.isMidnight then (if d.hasTypedDates then "DATE " else "") ++ "'" ++ t.date.text ++ "'"
  else (if d.hasTypedDates then "TIMESTAMP " else "") ++ "'" ++ t.text ' ' ++ "'"

/-- A number, which all dialects write alike. -/
def numberText : Number → String
  | .int n => String.ofList (Text.signedDigits n.toInt)
  | .float x => Number.floatText x
  | .decimal x => x.text

/-- The literal of a constant. -/
def constantText (d : Dialect) : Constant → String
  | .boolean b => d.booleanText b
  | .string s => d.stringText s
  | .number n => numberText n
  | .date t => d.dateText t
  | .binary bytes => d.binaryText bytes
  | .guid g => d.stringText g.text

end Dialect

end SqlTree
