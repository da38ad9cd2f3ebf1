import SqlTree.Obstacle.Query
import SqlTree.Proofs.Tree.Strings

/-!
# Obstacles do not depend on strings

What keeps a dialect from writing a tree is in its constructs, so it stays when the strings of the
tree change. Every kind of tree is treated on its own, along the recursion of `obstacles`.

Results:
* `Select.obstacles_mapStrings` and its companions: mapping strings keeps the obstacles.
-/

namespace SqlTree

variable (d : Dialect) (f : String → String)

mutual

theorem Expr.obstacles_mapStrings : ∀ e : Expr, (e.mapStrings f).obstacles d = e.obstacles d
  | .field _ _ | .constant _ | .parameter _ | .raw _ | .star _ | .rowNumber _ | .null => rfl
  | .function name args => by
    rw [Expr.mapStrings, Expr.obstacles, Expr.obstaclesOfAll_mapStrings args, Expr.obstacles]
  | .aggregate h none distinct => rfl
  | .aggregate h (some arg) distinct => by
    rw [Expr.mapStrings, Expr.obstacles, Expr.obstacles_mapStrings arg, Expr.obstacles]
  | .case arms none => by
    rw [Expr.mapStrings, Expr.obstacles, CaseArm.obstaclesOfAll_mapStrings arms, Expr.obstacles]
  | .case arms (some e) => by
    rw [Expr.mapStrings, Expr.obstacles, CaseArm.obstaclesOfAll_mapStrings arms,
      Expr.obstacles_mapStrings e, Expr.obstacles]
  | .arithmetic left op right | .dateDiff op left right | .ifNull left right => by
    rw [Expr.mapStrings, Expr.obstacles, Expr.obstacles_mapStrings left,
      Expr.obstacles_mapStrings right, Expr.obstacles]
  | .subquery q => by
    rw [Expr.mapStrings, Expr.obstacles, Select.obstacles_mapStrings q, Expr.obstacles]

theorem Expr.obstaclesOfAll_mapStrings : ∀ es : List Expr,
    Expr.obstaclesOfAll d (Expr.mapStringsOfAll f es) = Expr.obstaclesOfAll d es
  | [] => rfl
  | e :: es => by
    rw [Expr.mapStringsOfAll, Expr.obstaclesOfAll, Expr.obstacles_mapStrings e,
      Expr.obstaclesOfAll_mapStrings es, Expr.obstaclesOfAll]

theorem CaseArm.obstaclesOfAll_mapStrings : ∀ arms : List CaseArm,
    CaseArm.obstaclesOfAll d (CaseArm.mapStringsOfAll f arms) = CaseArm.obstaclesOfAll d arms
  | [] => rfl
  | ⟨condition, result⟩ :: arms => by
    rw [CaseArm.mapStringsOfAll, CaseArm.obstaclesOfAll, Condition.obstacles_mapStrings condition,
      Expr.obstacles_mapStrings result, CaseArm.obstaclesOfAll_mapStrings arms,
      CaseArm.obstaclesOfAll]

theorem Subquery.obstacles_mapStrings :
    ∀ s : Subquery, (s.mapStrings f).obstacles d = s.obstacles d
  | .query q => by
    rw [Subquery.mapStrings, Subquery.obstacles, Select.obstacles_mapStrings q, Subquery.obstacles]
  | .text sql => rfl

theorem Predicate.obstacles_mapStrings :
    ∀ p : Predicate, (p.mapStrings f).obstacles d = p.obstacles d
  | .compare left op right => by
    rw [Predicate.mapStrings, Predicate.obstacles, Expr.obstacles_mapStrings left,
      Expr.obstacles_mapStrings right, Predicate.obstacles]
  | .between e low high negated => by
    rw [Predicate.mapStrings, Predicate.obstacles, Expr.obstacles_mapStrings e,
      Expr.obstacles_mapStrings low, Expr.obstacles_mapStrings high, Predicate.obstacles]
  | .inList e values negated => by
    rw [Predicate.mapStrings, Predicate.obstacles, Expr.obstacles_mapStrings e, List.isEmpty_map,
      Predicate.obstacles]
  | .isNull e negated => by
    rw [Predicate.mapStrings, Predicate.obstacles, Expr.obstacles_mapStrings e,
      Predicate.obstacles]
  | .inSubquery e s negated => by
    rw [Predicate.mapStrings, Predicate.obstacles, Expr.obstacles_mapStrings e,
      Subquery.obstacles_mapStrings s, Predicate.obstacles]
  | .exists s negated => by
    rw [Predicate.mapStrings, Predicate.obstacles, Subquery.obstacles_mapStrings s,
      Predicate.obstacles]
  | .raw sql => rfl

theorem Predicate.obstaclesOfAll_mapStrings : ∀ ps : List Predicate,
    Predicate.obstaclesOfAll d (Predicate.mapStringsOfAll f ps) = Predicate.obstaclesOfAll d ps
  | [] => rfl
  | p :: ps => by
    rw [Predicate.mapStringsOfAll, Predicate.obstaclesOfAll, Predicate.obstacles_mapStrings p,
      Predicate.obstaclesOfAll_mapStrings ps, Predicate.obstaclesOfAll]

theorem Condition.obstacles_mapStrings :
    ∀ c : Condition, (c.mapStrings f).obstacles d = c.obstacles d
  | ⟨connective, predicates, groups⟩ => by
    rw [Condition.mapStrings, Condition.obstacles, Predicate.obstaclesOfAll_mapStrings predicates,
      Condition.obstaclesOfAll_mapStrings groups, Condition.obstacles]

theorem Condition.obstaclesOfAll_mapStrings : ∀ gs : List Condition,
    Condition.obstaclesOfAll d (Condition.mapStringsOfAll f gs) = Condition.obstaclesOfAll d gs
  | [] => rfl
  | g :: gs => by
    rw [Condition.mapStringsOfAll, Condition.obstaclesOfAll, Condition.obstacles_mapStrings g,
      Condition.obstaclesOfAll_mapStrings gs, Condition.obstaclesOfAll]

theorem Source.obstacles_mapStrings : ∀ s : Source, (s.mapStrings f).obstacles d = s.obstacles d
  | .query q => by
    rw [Source.mapStrings, Source.obstacles, Select.obstacles_mapStrings q, Source.obstacles]
  | .table _ _ | .queryText _ | .aliasRef _ => rfl

theorem TableRef.obstacles_mapStrings :
    ∀ t : TableRef, (t.mapStrings f).obstacles d = t.obstacles d
  | ⟨source, aliasName⟩ => by
    rw [TableRef.mapStrings, TableRef.obstacles, Source.obstacles_mapStrings source,
      TableRef.obstacles]

theorem JoinCondition.obstacles_mapStrings :
    ∀ c : JoinCondition, (c.mapStrings f).obstacles d = c.obstacles d
  | .condition c => by
    rw [JoinCondition.mapStrings, JoinCondition.obstacles, Condition.obstacles_mapStrings c,
      JoinCondition.obstacles]
  | .fields _ _ | .none => rfl

theorem Join.obstaclesOfAll_mapStrings : ∀ js : List Join,
    Join.obstaclesOfAll d (Join.mapStringsOfAll f js) = Join.obstaclesOfAll d js
  | [] => rfl
  | ⟨joinType, right, condition⟩ :: js => by
    rw [Join.mapStringsOfAll, Join.obstaclesOfAll, TableRef.obstacles_mapStrings right,
      JoinCondition.obstacles_mapStrings condition, Join.obstaclesOfAll_mapStrings js,
      Join.obstaclesOfAll]

theorem FromClause.obstacles_mapStrings :
    ∀ s : FromClause, (s.mapStrings f).obstacles d = s.obstacles d
  | ⟨none, joins⟩ => by
    rw [FromClause.mapStrings, FromClause.obstacles, Join.obstaclesOfAll_mapStrings joins,
      FromClause.obstacles]
  | ⟨some base, joins⟩ => by
    rw [FromClause.mapStrings, FromClause.obstacles, TableRef.obstacles_mapStrings base,
      Join.obstaclesOfAll_mapStrings joins, FromClause.obstacles]

theorem SelectItem.obstaclesOfAll_mapStrings : ∀ is : List SelectItem,
    SelectItem.obstaclesOfAll d (SelectItem.mapStringsOfAll f is) = SelectItem.obstaclesOfAll d is
  | [] => rfl
  | ⟨e, aliasName⟩ :: is => by
    rw [SelectItem.mapStringsOfAll, SelectItem.obstaclesOfAll, Expr.obstacles_mapStrings e,
      SelectItem.obstaclesOfAll_mapStrings is, SelectItem.obstaclesOfAll]

/-- The obstacles of a query stay. -/
theorem Select.obstacles_mapStrings : ∀ q : Select, (q.mapStrings f).obstacles d = q.obstacles d
  | ⟨items, source, filter, groupBy, groupModifier, having, orderBy, distinct, top, page,
      tableSpace⟩ => by
    rw [Select.mapStrings, Select.obstacles, SelectItem.obstaclesOfAll_mapStrings items,
      FromClause.obstacles_mapStrings source, FromClause.isEmpty_mapStrings,
      Condition.obstacles_mapStrings filter, Condition.obstacles_mapStrings having,
      Select.obstacles]

end

end SqlTree
