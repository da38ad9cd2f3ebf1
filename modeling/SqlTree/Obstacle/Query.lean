import SqlTree.Dialect.DateDifference
import SqlTree.Error
import SqlTree.Syntax.Expr

/-!
# What a dialect cannot express

`obstacles` lists, in the order in which a tree is written, the places that keep it from being
written in a dialect: constructs that the dialect lacks, and pages without an order where pages
are cut out by row numbers. What is not written is no obstacle.
-/

namespace SqlTree

/-- The obstacle in a page of rows: numbering rows needs an order. -/
def pageObstacles (d : Dialect) (page : Option Page) : List Error :=
  if page.isSome ∧ d.pagingStyle = .numberedBlocks then [.invalidQuery .pageWithoutOrder] else []

/-- The obstacle in a group modifier. -/
def groupObstacles (d : Dialect) (modifier : GroupModifier) (keys : List GroupKey) :
    List Error :=
  if keys ≠ [] ∧ modifier = .cube ∧ d.hasCube = false then [.unsupported .groupByCube d] else []

/-- The obstacle in a join type. -/
def joinObstacles (d : Dialect) (joinType : JoinType) : List Error :=
  if joinType = .full ∧ d.hasFullJoin = false then [.unsupported .fullJoin d] else []

/-- The obstacle in a date unit. -/
def unitObstacles (d : Dialect) (unit : DateUnit) : List Error :=
  if (d.dateDifference? unit).isNone then [.unsupported (.dateDifference unit) d] else []

mutual

/-- The obstacles in an expression. -/
def Expr.obstacles (d : Dialect) : Expr → List Error
  | .field _ _ | .constant _ | .parameter _ | .raw _ | .star _ | .rowNumber _ | .null => []
  | .function _ args => Expr.obstaclesOfAll d args
  | .aggregate _ none _ => []
  | .aggregate _ (some arg) _ => arg.obstacles d
  | .case arms none => CaseArm.obstaclesOfAll d arms
  | .case arms (some e) => CaseArm.obstaclesOfAll d arms ++ e.obstacles d
  | .arithmetic left _ right => left.obstacles d ++ right.obstacles d
  | .dateDiff unit start finish => start.obstacles d ++ finish.obstacles d ++ unitObstacles d unit
  | .ifNull value fallback => value.obstacles d ++ fallback.obstacles d
  | .subquery q => q.obstacles d

/-- The obstacles in the expressions of a list. -/
def Expr.obstaclesOfAll (d : Dialect) : List Expr → List Error
  | [] => []
  | e :: es => e.obstacles d ++ Expr.obstaclesOfAll d es

/-- The obstacles in the arms of a case expression. -/
def CaseArm.obstaclesOfAll (d : Dialect) : List CaseArm → List Error
  | [] => []
  | ⟨condition, result⟩ :: arms =>
    condition.obstacles d ++ result.obstacles d ++ CaseArm.obstaclesOfAll d arms

/-- The obstacles in a subquery. -/
def Subquery.obstacles (d : Dialect) : Subquery → List Error
  | .query q => q.obstacles d
  | .text _ => []

/-- The obstacles in a predicate. An expression before an empty list is not written. -/
def Predicate.obstacles (d : Dialect) : Predicate → List Error
  | .compare left _ right => left.obstacles d ++ right.obstacles d
  | .between e low high _ => e.obstacles d ++ low.obstacles d ++ high.obstacles d
  | .inList e values _ => if values.isEmpty then [] else e.obstacles d
  | .inSubquery e s _ => e.obstacles d ++ s.obstacles d
  | .isNull e _ => e.obstacles d
  | .exists s _ => s.obstacles d
  | .raw _ => []

/-- The obstacles in the predicates of a list. -/
def Predicate.obstaclesOfAll (d : Dialect) : List Predicate → List Error
  | [] => []
  | p :: ps => p.obstacles d ++ Predicate.obstaclesOfAll d ps

/-- The obstacles in a condition. -/
def Condition.obstacles (d : Dialect) : Condition → List Error
  | ⟨_, predicates, groups⟩ =>
    Predicate.obstaclesOfAll d predicates ++ Condition.obstaclesOfAll d groups

/-- The obstacles in the conditions of a list. -/
def Condition.obstaclesOfAll (d : Dialect) : List Condition → List Error
  | [] => []
  | g :: gs => g.obstacles d ++ Condition.obstaclesOfAll d gs

/-- The obstacles in a source. -/
def Source.obstacles (d : Dialect) : Source → List Error
  | .query q => q.obstacles d
  | .table _ _ | .queryText _ | .aliasRef _ => []

/-- The obstacles in a named source. -/
def TableRef.obstacles (d : Dialect) : TableRef → List Error
  | ⟨source, _⟩ => source.obstacles d

/-- The obstacles in a join condition. -/
def JoinCondition.obstacles (d : Dialect) : JoinCondition → List Error
  | .condition c => c.obstacles d
  | .fields _ _ | .none => []

/-- The obstacles in joins. -/
def Join.obstaclesOfAll (d : Dialect) : List Join → List Error
  | [] => []
  | ⟨joinType, right, condition⟩ :: js =>
    joinObstacles d joinType ++ right.obstacles d ++ condition.obstacles d ++
      Join.obstaclesOfAll d js

/-- The obstacles in a base source and its joins. -/
def FromClause.obstacles (d : Dialect) : FromClause → List Error
  | ⟨none, joins⟩ => Join.obstaclesOfAll d joins
  | ⟨some base, joins⟩ => base.obstacles d ++ Join.obstaclesOfAll d joins

/-- The obstacles in output columns. -/
def SelectItem.obstaclesOfAll (d : Dialect) : List SelectItem → List Error
  | [] => []
  | ⟨e, _⟩ :: is => e.obstacles d ++ SelectItem.obstaclesOfAll d is

/-- The obstacles in a query. Joins without a base source are not written. -/
def Select.obstacles (d : Dialect) : Select → List Error
  | ⟨items, source, filter, groupBy, groupModifier, having, _, _, _, page, _⟩ =>
    pageObstacles d page ++ SelectItem.obstaclesOfAll d items ++
      (if source.isEmpty then [] else source.obstacles d) ++ filter.obstacles d ++
      groupObstacles d groupModifier groupBy ++ having.obstacles d

end

end SqlTree
