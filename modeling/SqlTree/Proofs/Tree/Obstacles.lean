import SqlTree.Obstacle.Query
import SqlTree.Proofs.Tree.Expansion

/-!
# Obstacles, node by node

The obstacles of a tree are those of its nodes, apart from what is not written. Expanding the pages
of a tree keeps the obstacles of every node that is no query.

Results:
* `Node.mem_obstacles`: an obstacle in a node is its own or in a child.
* `Node.ownObstacles_expandPages`: an expanded node that is no query has the obstacles of its own
  that it had.
-/

namespace SqlTree

/-! ## Lists -/

@[simp] theorem Expr.obstaclesOfAll_eq_flatMap (d : Dialect) (es : List Expr) :
    Expr.obstaclesOfAll d es = es.flatMap (Expr.obstacles d) := by
  induction es with
  | nil => rfl
  | cons e es ih => rw [Expr.obstaclesOfAll, ih, List.flatMap_cons]

@[simp] theorem CaseArm.obstaclesOfAll_eq_flatMap (d : Dialect) (arms : List CaseArm) :
    CaseArm.obstaclesOfAll d arms =
      arms.flatMap fun a => a.condition.obstacles d ++ a.result.obstacles d := by
  induction arms with
  | nil => rfl
  | cons a arms ih =>
    obtain ⟨condition, result⟩ := a
    rw [CaseArm.obstaclesOfAll, ih, List.flatMap_cons]

@[simp] theorem Predicate.obstaclesOfAll_eq_flatMap (d : Dialect) (ps : List Predicate) :
    Predicate.obstaclesOfAll d ps = ps.flatMap (Predicate.obstacles d) := by
  induction ps with
  | nil => rfl
  | cons p ps ih => rw [Predicate.obstaclesOfAll, ih, List.flatMap_cons]

@[simp] theorem Condition.obstaclesOfAll_eq_flatMap (d : Dialect) (gs : List Condition) :
    Condition.obstaclesOfAll d gs = gs.flatMap (Condition.obstacles d) := by
  induction gs with
  | nil => rfl
  | cons g gs ih => rw [Condition.obstaclesOfAll, ih, List.flatMap_cons]

@[simp] theorem Join.obstaclesOfAll_eq_flatMap (d : Dialect) (js : List Join) :
    Join.obstaclesOfAll d js = js.flatMap fun j =>
      joinObstacles d j.joinType ++ j.right.obstacles d ++ j.condition.obstacles d := by
  induction js with
  | nil => rfl
  | cons j js ih =>
    obtain ⟨joinType, right, condition⟩ := j
    rw [Join.obstaclesOfAll, ih, List.flatMap_cons]

@[simp] theorem SelectItem.obstaclesOfAll_eq_flatMap (d : Dialect) (is : List SelectItem) :
    SelectItem.obstaclesOfAll d is = is.flatMap fun i => i.expr.obstacles d := by
  induction is with
  | nil => rfl
  | cons i is ih =>
    obtain ⟨e, aliasName⟩ := i
    rw [SelectItem.obstaclesOfAll, ih, List.flatMap_cons]

/-! ## Nodes -/

namespace Node

/-- The obstacles in a node. -/
def obstacles (d : Dialect) : Node → List Error
  | expr e => e.obstacles d
  | predicate p => p.obstacles d
  | condition c => c.obstacles d
  | tableRef t => t.obstacles d
  | fromClause f => f.obstacles d
  | select q => q.obstacles d

/-- The obstacles of a node itself. -/
def ownObstacles (d : Dialect) : Node → List Error
  | expr (.dateDiff unit _ _) => unitObstacles d unit
  | fromClause f => f.joins.flatMap fun j => joinObstacles d j.joinType
  | select q => pageObstacles d q.page ++ groupObstacles d q.groupModifier q.groupBy
  | _ => []

variable {d : Dialect} {e : Error}

theorem mem_obstacles_subquery {s : Subquery} (h : e ∈ s.obstacles d) :
    ∃ c ∈ s.nodes, e ∈ c.obstacles d := by
  cases s with
  | query q => exact ⟨select q, by simp [Subquery.nodes], h⟩
  | text sql => simp [Subquery.obstacles] at h

theorem mem_obstacles_source {s : Source} (h : e ∈ s.obstacles d) :
    ∃ c ∈ s.nodes, e ∈ c.obstacles d := by
  cases s with
  | query q => exact ⟨select q, by simp [Source.nodes], h⟩
  | _ => simp [Source.obstacles] at h

theorem mem_obstacles_joinCondition {x : JoinCondition} (h : e ∈ x.obstacles d) :
    ∃ c ∈ x.nodes, e ∈ c.obstacles d := by
  cases x with
  | condition g => exact ⟨condition g, by simp [JoinCondition.nodes], h⟩
  | _ => simp [JoinCondition.obstacles] at h

theorem mem_obstacles_expr {x : Expr} (h : e ∈ x.obstacles d) :
    e ∈ (expr x).ownObstacles d ∨ ∃ c ∈ x.nodes, e ∈ c.obstacles d := by
  cases x with
  | function name args =>
    rw [Expr.obstacles, Expr.obstaclesOfAll_eq_flatMap] at h
    obtain ⟨a, ha, h⟩ := List.mem_flatMap.mp h
    exact .inr ⟨expr a, List.mem_map_of_mem ha, h⟩
  | aggregate f arg distinct =>
    cases arg with
    | none => simp [Expr.obstacles] at h
    | some a => right; simpa [Expr.obstacles, Expr.nodes, obstacles] using h
  | case arms otherwise =>
    right
    cases otherwise <;> simp [Expr.obstacles, Expr.nodes, CaseArm.nodes, obstacles] at h ⊢ <;> grind
  | dateDiff unit start finish =>
    simp [Expr.obstacles, Expr.nodes, obstacles, ownObstacles] at h ⊢
    grind
  | arithmetic | ifNull | subquery =>
    right; simpa [Expr.obstacles, Expr.nodes, obstacles] using h
  | _ => simp [Expr.obstacles] at h

theorem mem_obstacles_predicate {p : Predicate} (h : e ∈ p.obstacles d) :
    ∃ c ∈ p.nodes, e ∈ c.obstacles d := by
  cases p with
  | inSubquery x s negated =>
    rcases List.mem_append.mp h with h | h
    · exact ⟨expr x, List.mem_cons_self, h⟩
    · obtain ⟨c, hc, h⟩ := mem_obstacles_subquery h
      exact ⟨c, List.mem_cons_of_mem _ hc, h⟩
  | «exists» s negated => exact mem_obstacles_subquery h
  | inList x values negated =>
    rw [Predicate.obstacles] at h
    split at h
    · simp at h
    · exact ⟨expr x, List.mem_cons_self, h⟩
  | compare | between | isNull =>
    simpa [Predicate.obstacles, Predicate.nodes, obstacles, or_assoc] using h
  | raw sql => simp [Predicate.obstacles] at h

theorem mem_obstacles_joins {joins : List Join} (h : e ∈ Join.obstaclesOfAll d joins) :
    e ∈ joins.flatMap (fun j => joinObstacles d j.joinType) ∨
      ∃ c ∈ joins.flatMap Join.nodes, e ∈ c.obstacles d := by
  rw [Join.obstaclesOfAll_eq_flatMap] at h
  obtain ⟨j, hj, h⟩ := List.mem_flatMap.mp h
  rcases List.mem_append.mp h with h | h
  · rcases List.mem_append.mp h with h | h
    · exact .inl (List.mem_flatMap.mpr ⟨j, hj, h⟩)
    · exact .inr ⟨tableRef j.right, List.mem_flatMap.mpr ⟨j, hj, List.mem_cons_self⟩, h⟩
  · obtain ⟨c, hc, h⟩ := mem_obstacles_joinCondition h
    exact .inr ⟨c, List.mem_flatMap.mpr ⟨j, hj, List.mem_cons_of_mem _ hc⟩, h⟩

/-- An obstacle in a node is its own or in a child. -/
theorem mem_obstacles {n : Node} (h : e ∈ n.obstacles d) :
    e ∈ n.ownObstacles d ∨ ∃ c ∈ n.children, e ∈ c.obstacles d := by
  cases n with
  | expr x => exact mem_obstacles_expr h
  | predicate p => exact .inr (mem_obstacles_predicate h)
  | condition g =>
    obtain ⟨connective, predicates, groups⟩ := g
    right
    simp [obstacles, Condition.obstacles, children] at h ⊢
    grind [obstacles]
  | tableRef t =>
    obtain ⟨source, aliasName⟩ := t
    exact .inr (mem_obstacles_source h)
  | fromClause f =>
    obtain ⟨base, joins⟩ := f
    cases base with
    | none =>
      rcases mem_obstacles_joins h with h | ⟨c, hc, h⟩
      · exact .inl h
      · exact .inr ⟨c, List.mem_append_right _ hc, h⟩
    | some base =>
      rcases List.mem_append.mp h with h | h
      · exact .inr ⟨tableRef base, List.mem_append_left _ (by simp), h⟩
      · rcases mem_obstacles_joins h with h | ⟨c, hc, h⟩
        · exact .inl h
        · exact .inr ⟨c, List.mem_append_right _ hc, h⟩
  | select q =>
    cases q
    simp [obstacles, Select.obstacles, children, ownObstacles] at h ⊢
    grind [obstacles]

/-- Expanding pages keeps the obstacles of a node itself, unless it is a query. -/
theorem ownObstacles_expandPages {n : Node} (h : ∀ q, n ≠ select q) :
    n.expandPages.ownObstacles d = n.ownObstacles d := by
  cases n with
  | expr x =>
    cases x with
    | aggregate f arg distinct => cases arg <;> rfl
    | case arms otherwise => cases otherwise <;> rfl
    | _ => rfl
  | fromClause f =>
    obtain ⟨base, joins⟩ := f
    cases base <;>
      simp only [expandPages, FromClause.expandPages, ownObstacles, Join.expandPagesOfAll_eq_map,
        List.flatMap_map, Join.expandPages]
  | select q => exact absurd rfl (h q)
  | predicate | condition | tableRef => rfl

end Node

end SqlTree
