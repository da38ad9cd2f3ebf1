import SqlTree.Syntax.Statement
import SqlTree.Validity.Query

/-!
# Violations in statements

The rules of unions, inserts, updates and deletes, and the check of a whole statement.

* `Statement.violations`: all places where a statement breaks a rule;
* `firstViolation`: success, or the first of them.
-/

namespace SqlTree

/-- Success if there is no violation, else the first one. -/
def firstViolation : List Violation → Except Violation Unit
  | [] => .ok ()
  | v :: _ => .error v

/-- The violations in the members of a union, numbered from `index`. A member has neither an order
nor a page. -/
def UnionMember.violationsOfAll (index : Nat) : List UnionMember → List Violation
  | [] => []
  | m :: ms =>
    violationIf (m.query.orderBy ≠ [] ∨ m.query.page.isSome) (.unionMemberOrdered index) ++
      m.query.violations ++ UnionMember.violationsOfAll (index + 1) ms

/-- The violations in a union, which has members. -/
def Union.violations (u : Union) : List Violation :=
  violationIf (u.members.isEmpty = true) .unionWithoutMembers ++
    UnionMember.violationsOfAll 0 u.members

/-- The violations in assignments after those to the fields `seen`. No field is assigned twice. -/
def Assignment.violationsOfAll (seen : List String) : List Assignment → List Violation
  | [] => []
  | a :: as =>
    violationIf (a.field ∈ seen) (.fieldAssignedTwice a.field) ++ a.value.violations ++
      Assignment.violationsOfAll (a.field :: seen) as

/-- The violations in an insert, which names a table and sets fields. -/
def Insert.violations (i : Insert) : List Violation :=
  violationIf (i.table = "") .tableNameEmpty ++
    violationIf (i.assignments.isEmpty = true) .insertWithoutFields ++
    Assignment.violationsOfAll [] i.assignments

/-- The table of an insert, after its namespace. -/
def Insert.target (i : Insert) : String :=
  match i.namespaceName with
  | none => i.table
  | some n => n ++ "." ++ i.table

/-- The fields that an insert sets. -/
def Insert.fields (i : Insert) : List String := i.assignments.map Assignment.field

/-- Whether two lists have the same members. -/
def sameMembers (xs ys : List String) : Bool := xs.all (ys.contains ·) && ys.all (xs.contains ·)

/-- The violations of values that are not constants, in the order of the fields. -/
def constantViolations (i : Insert) : List Violation :=
  (i.assignments.filter fun a => !a.value.isLiteral).map fun a => .bulkValueNotConstant a.field

/-- The violations in the rows of a bulk insert, numbered from `row`. Each row is like the first
one: the same table, the same fields, and constants only. -/
def bulkRowViolations (first : Insert) (row : Nat) : List Insert → List Violation
  | [] => []
  | i :: is =>
    i.violations ++
      violationIf (i.namespaceName ≠ first.namespaceName ∨ i.table ≠ first.table)
        (.bulkTableDiffers first.target i.target) ++
      violationIf (sameMembers i.fields first.fields = false) (.bulkFieldsDiffer row) ++
      constantViolations i ++ bulkRowViolations first (row + 1) is

/-- The violations in a bulk insert, which has rows. -/
def BulkInsert.violations (b : BulkInsert) : List Violation :=
  match b.rows with
  | [] => [.bulkWithoutRows]
  | first :: rest => bulkRowViolations first 0 (first :: rest)

/-- The violations in an update, which names a table and sets fields. -/
def Update.violations (u : Update) : List Violation :=
  violationIf (u.table = "") .tableNameEmpty ++
    violationIf (u.assignments.isEmpty = true) .updateWithoutFields ++
    Assignment.violationsOfAll [] u.assignments ++ u.filter.violations

/-- The violations in a delete, which names a table. -/
def Delete.violations (x : Delete) : List Violation :=
  violationIf (x.table = "") .tableNameEmpty ++ x.filter.violations

/-- The violations in a statement. -/
def Statement.violations : Statement → List Violation
  | .select q => q.violations
  | .union u => u.violations
  | .insert i => i.violations
  | .bulkInsert b => b.violations
  | .update u => u.violations
  | .delete x => x.violations

/-- Whether a statement keeps all rules, and if not, the first one it breaks. -/
def Statement.validate (s : Statement) : Except Violation Unit := firstViolation s.violations

end SqlTree
