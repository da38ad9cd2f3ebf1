import SqlTree.Error
import SqlTree.Syntax.Expr

/-!
# Violations in queries

The rules that a tree has to keep before it is written, as the list of all places where one is
broken: first those of a node itself, then those of its parts, in order. A tree is valid if the
list is empty, and otherwise the first entry is the reason.
-/

namespace SqlTree

/-- A violation, if a condition holds. -/
def violationIf (condition : Prop) [Decidable condition] (v : Violation) : List Violation :=
  if condition then [v] else []

/-- Numbers in constants are finite. -/
def Constant.violations (c : Constant) : List Violation :=
  violationIf (c.isFinite = false) .numberNotFinite

/-- A page has rows, and its query an order. -/
def pageViolations (page : Option Page) (orderBy : List SortKey) : List Violation :=
  match page with
  | none => []
  | some p => violationIf (p.size = 0) .pageSizeZero ++ violationIf (orderBy = []) .pageWithoutOrder

/-- A cube or rollup has group keys. -/
def groupViolations (modifier : GroupModifier) (keys : List GroupKey) : List Violation :=
  violationIf (modifier ≠ .none ∧ keys = []) .groupModifierWithoutKeys

/-- A table has a name, and a query that is a source an alias. -/
def sourceViolations (source : Source) (aliasName : Option String) : List Violation :=
  match source with
  | .table name _ => violationIf (name = "") .tableNameEmpty
  | .query _ | .queryText _ => violationIf (aliasName = none) (.aliasMissing .subquery)
  | .aliasRef _ => []

/-- A cross join has no condition and any other join one that is not empty; equal fields are given
in pairs, and their left side is among the names of earlier sources. -/
def joinViolations (known : List String) (joinType : JoinType) (condition : JoinCondition) :
    List Violation :=
  match condition, joinType with
  | .none, .cross => []
  | _, .cross => [.joinConditionUnexpected]
  | .none, _ => [.joinConditionMissing joinType]
  | .fields left pairs, _ =>
    violationIf (left ∉ known) (.joinTableUnknown left) ++
      violationIf (pairs = []) .joinPairsMissing
  | .condition c, _ => violationIf (c.isEmpty = true) (.joinConditionMissing joinType)

mutual

/-- The violations in an expression. -/
def Expr.violations : Expr → List Violation
  | .field _ _ | .parameter _ | .raw _ | .star _ | .null => []
  | .constant c => c.violations
  | .function _ args => Expr.violationsOfAll args
  | .aggregate _ none _ => []
  | .aggregate _ (some arg) _ => arg.violations
  | .case arms none =>
    violationIf (arms.isEmpty = true) .caseWithoutArms ++ CaseArm.violationsOfAll arms
  | .case arms (some e) =>
    violationIf (arms.isEmpty = true) .caseWithoutArms ++ CaseArm.violationsOfAll arms ++
      e.violations
  | .arithmetic left _ right => left.violations ++ right.violations
  | .dateDiff _ start finish => start.violations ++ finish.violations
  | .ifNull value fallback => value.violations ++ fallback.violations
  | .subquery q => q.violations
  | .rowNumber orderBy => violationIf (orderBy = []) .windowWithoutOrder

/-- The violations in the expressions of a list. -/
def Expr.violationsOfAll : List Expr → List Violation
  | [] => []
  | e :: es => e.violations ++ Expr.violationsOfAll es

/-- The violations in the arms of a case expression, each of which has a condition. -/
def CaseArm.violationsOfAll : List CaseArm → List Violation
  | [] => []
  | ⟨condition, result⟩ :: arms =>
    violationIf (condition.isEmpty = true) .caseConditionEmpty ++ condition.violations ++
      result.violations ++ CaseArm.violationsOfAll arms

/-- The violations in a subquery. -/
def Subquery.violations : Subquery → List Violation
  | .query q => q.violations
  | .text _ => []

/-- The violations in a predicate. -/
def Predicate.violations : Predicate → List Violation
  | .compare left _ right => left.violations ++ right.violations
  | .between e low high _ => e.violations ++ low.violations ++ high.violations
  | .inList e values _ => e.violations ++ values.flatMap Constant.violations
  | .inSubquery e s _ => e.violations ++ s.violations
  | .isNull e _ => e.violations
  | .exists s _ => s.violations
  | .raw _ => []

/-- The violations in the predicates of a list. -/
def Predicate.violationsOfAll : List Predicate → List Violation
  | [] => []
  | p :: ps => p.violations ++ Predicate.violationsOfAll ps

/-- The violations in a condition. -/
def Condition.violations : Condition → List Violation
  | ⟨_, predicates, groups⟩ =>
    Predicate.violationsOfAll predicates ++ Condition.violationsOfAll groups

/-- The violations in the conditions of a list. -/
def Condition.violationsOfAll : List Condition → List Violation
  | [] => []
  | g :: gs => g.violations ++ Condition.violationsOfAll gs

/-- The violations inside what rows are read from. -/
def Source.violations : Source → List Violation
  | .query q => q.violations
  | .table _ _ | .queryText _ | .aliasRef _ => []

/-- The violations in a source. -/
def TableRef.violations : TableRef → List Violation
  | ⟨source, aliasName⟩ => sourceViolations source aliasName ++ source.violations

/-- The violations inside a join condition. -/
def JoinCondition.violations : JoinCondition → List Violation
  | .condition c => c.violations
  | .fields _ _ | .none => []

/-- The violations in joins. Each joined source has an alias, and joins refer to the names of the
sources before them. -/
def Join.violationsOfAll : List Join → List String → List Violation
  | [], _ => []
  | ⟨joinType, right, condition⟩ :: js, known =>
    violationIf (right.aliasName = none) (.aliasMissing .joinTarget) ++ right.violations ++
      joinViolations known joinType condition ++ condition.violations ++
      Join.violationsOfAll js (known ++ right.refName.toList)

/-- The violations in the sources of a query. There is a base source. -/
def FromClause.violations : FromClause → List Violation
  | ⟨none, _⟩ => [.sourceMissing]
  | ⟨some base, joins⟩ => base.violations ++ Join.violationsOfAll joins base.refName.toList

/-- The violations in output columns. -/
def SelectItem.violationsOfAll : List SelectItem → List Violation
  | [] => []
  | ⟨e, _⟩ :: is => e.violations ++ SelectItem.violationsOfAll is

/-- The violations in a query. -/
def Select.violations : Select → List Violation
  | ⟨items, source, filter, groupBy, groupModifier, having, orderBy, _, _, page, _⟩ =>
    source.violations ++ pageViolations page orderBy ++ groupViolations groupModifier groupBy ++
      SelectItem.violationsOfAll items ++ filter.violations ++ having.violations

end

end SqlTree
