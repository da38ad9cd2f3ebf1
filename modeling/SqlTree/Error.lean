import SqlTree.Dialect.Basic
import SqlTree.Syntax.Words

/-!
# Errors

Why a constant cannot be made, why a statement is not valid, and why one cannot be written in a
dialect. Each error is the cause; `message` is its text.
-/

namespace SqlTree

/-! ## Constants -/

/-- Why there is no constant of a kind. -/
inductive ConstantFault where
  /-- The text does not denote a value of the kind. -/
  | unreadable (text : String)
  | notFinite (x : Float)
  | noSuchDay (year : Int) (month day : Nat)
  | noSuchTime (year : Int) (month day hour minute second : Nat)
  /-- The value has another kind. -/
  | kindDiffers (found : DataKind)

/-- What a text of a kind should have been. -/
def DataKind.expectation : DataKind → String
  | boolean => "is not a boolean"
  | string => "is not a string"
  | number => "is not a number"
  | date => "is not a date"
  | binary => "is not a hex string"
  | guid => "is not a guid"

/-- A year in at least four characters, of which the minus sign is one. -/
def shortYearText (year : Int) : String :=
  String.ofList <|
    if year < 0 then '-' :: Text.paddedDigits 3 year.natAbs else Text.paddedDigits 4 year.natAbs

/-- Numbers in at least two digits with a separator between them. -/
def pairsText (separator : Char) (ns : List Nat) : String :=
  String.ofList ([separator].intercalate (ns.map (Text.paddedDigits 2)))

/-- The text of a fault. -/
def ConstantFault.message (kind : DataKind) : ConstantFault → String
  | unreadable text => "'" ++ text ++ "' " ++ kind.expectation
  | notFinite x => Number.nonFiniteText x ++ " is not a finite number"
  | noSuchDay year month day =>
    shortYearText year ++ "-" ++ pairsText '-' [month, day] ++ " is not a calendar date"
  | noSuchTime year month day hour minute second =>
    shortYearText year ++ "-" ++ pairsText '-' [month, day] ++ " " ++
      pairsText ':' [hour, minute, second] ++ " is not a valid timestamp"
  | kindDiffers found => "value of kind " ++ found.name ++ " does not match"

/-! ## Statements -/

/-- A place in a query that needs an alias. -/
inductive AliasPlace where
  | subquery
  | joinTarget
deriving DecidableEq

/-- The words for a place that needs an alias. -/
def AliasPlace.text : AliasPlace → String
  | subquery => "subquery"
  | joinTarget => "join target"

/-- A rule that a statement breaks. -/
inductive Violation where
  | bulkWithoutRows
  | bulkTableDiffers (expected found : String)
  | bulkFieldsDiffer (row : Nat)
  | bulkValueNotConstant (field : String)
  | insertWithoutFields
  | updateWithoutFields
  | fieldAssignedTwice (field : String)
  | tableNameEmpty
  | sourceMissing
  | pageWithoutOrder
  | pageSizeZero
  | aliasMissing (place : AliasPlace)
  | joinTableUnknown (name : String)
  | joinPairsMissing
  | joinConditionUnexpected
  | joinConditionMissing (joinType : JoinType)
  | groupModifierWithoutKeys
  | windowWithoutOrder
  | unionWithoutMembers
  | unionMemberOrdered (index : Nat)
  | caseWithoutArms
  | caseConditionEmpty
  | numberNotFinite
  | pivotWithoutColumns
  | pivotColumnWithoutValues (field : String)
  | pivotNameTwice (name : String)
  | pivotKindDiffers (name : String) (expected found : DataKind)
  | pivotRangeUnbounded (name : String)
  | pivotValueUnknown (name : String)
deriving DecidableEq

/-- The text of a violation. -/
def Violation.message : Violation → String
  | bulkWithoutRows => "bulk insert has no rows"
  | bulkTableDiffers expected found =>
    "bulk insert rows target different tables: expected '" ++ expected ++ "', found '" ++
      found ++ "'"
  | bulkFieldsDiffer row =>
    "bulk insert row " ++ toString row ++ " does not set the same fields as the first row"
  | bulkValueNotConstant field => "bulk insert value for '" ++ field ++ "' is not a constant"
  | insertWithoutFields => "insert sets no fields"
  | updateWithoutFields => "update sets no fields"
  | fieldAssignedTwice field => "field '" ++ field ++ "' is assigned more than once"
  | tableNameEmpty => "statement has an empty table name"
  | sourceMissing => "select has no base table or subquery"
  | pageWithoutOrder => "paging requires at least one order term"
  | pageSizeZero => "page size must be greater than zero"
  | aliasMissing place => place.text ++ " requires an alias"
  | joinTableUnknown name => "join references unknown table '" ++ name ++ "'"
  | joinPairsMissing => "field join has no field pairs"
  | joinConditionUnexpected => "cross join cannot carry a condition"
  | joinConditionMissing joinType => joinType.title ++ " join requires a condition"
  | groupModifierWithoutKeys => "CUBE/ROLLUP requires GROUP BY terms"
  | windowWithoutOrder => "ROW_NUMBER() requires at least one order term"
  | unionWithoutMembers => "union has no members"
  | unionMemberOrdered index =>
    "union member " ++ toString index ++ " carries ORDER BY or paging"
  | caseWithoutArms => "CASE has no branches"
  | caseConditionEmpty => "CASE branch has an empty condition"
  | numberNotFinite => "numeric constant is not finite"
  | pivotWithoutColumns => "pivot has no columns"
  | pivotColumnWithoutValues field => "pivot column '" ++ field ++ "' has no values"
  | pivotNameTwice name => "pivot output name '" ++ name ++ "' is used more than once"
  | pivotKindDiffers name expected found =>
    "pivot value '" ++ name ++ "' is " ++ found.name ++ " but its column is " ++ expected.name
  | pivotRangeUnbounded name => "pivot range '" ++ name ++ "' has neither bound"
  | pivotValueUnknown name => "unknown pivot value '" ++ name ++ "'"

/-! ## Dialects and mappings -/

/-- A construct that some dialect lacks. -/
inductive Feature where
  | groupByCube
  | fullJoin
  | dateDifference (unit : DateUnit)
deriving DecidableEq

/-- The name of a construct. -/
def Feature.text : Feature → String
  | groupByCube => "GROUP BY CUBE"
  | fullJoin => "FULL OUTER JOIN"
  | dateDifference unit => unit.name ++ " date difference"

/-- Why an operation has no result. -/
inductive Error where
  | invalidConstant (kind : DataKind) (fault : ConstantFault)
  | invalidQuery (violation : Violation)
  | unsupported (feature : Feature) (dialect : Dialect)
  | unknownDateUnit (text : String)
  | unknownDialect (text : String)
  | unknownRecordType (name : String)
  | unknownProperty (recordType property : String)

/-- The text of an error. -/
def Error.message : Error → String
  | invalidConstant kind fault =>
    "invalid " ++ kind.name ++ " constant: " ++ fault.message kind
  | invalidQuery violation => "invalid query: " ++ violation.message
  | unsupported feature dialect =>
    feature.text ++ " is not supported by the " ++ dialect.name ++ " dialect"
  | unknownDateUnit text => "unknown date unit: " ++ text
  | unknownDialect text => "unknown dialect: " ++ text
  | unknownRecordType name => "no table mapping registered for '" ++ name ++ "'"
  | unknownProperty recordType property =>
    "'" ++ recordType ++ "' has no mapped property '" ++ property ++ "'"

end SqlTree
