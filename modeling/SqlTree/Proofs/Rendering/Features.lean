import SqlTree.Proofs.Paging.Blocks

/-!
# Constructs that a dialect lacks

Rendering stops at the first obstacle. In a valid tree each obstacle is a construct that the
dialect lacks: pages have orders there, so that their blocks exist, and the blocks bring in no
construct of their own.

Results:
* `Node.lack_or_child_of_mem_obstacles`: an obstacle in a valid node, as a dialect writes it, is a
  construct of the node that the dialect lacks, or stands in a child.
* `Node.exists_lack_of_mem_obstacles`: an obstacle in a valid node is a construct somewhere in it
  that the dialect lacks.
* `Statement.render_of_validate_eq_ok`: a valid statement renders, or names a construct in it that
  the dialect lacks; without such a construct it renders.
-/

namespace SqlTree

/-! ## Constructs -/

/-- The constructs of a node itself that not all dialects have. -/
def Node.features : Node → List Feature
  | .expr (.dateDiff unit _ _) => [.dateDifference unit]
  | .fromClause f => if ∃ j ∈ f.joins, j.joinType = .full then [.fullJoin] else []
  | .select q => if q.groupModifier = .cube then [.groupByCube] else []
  | _ => []

/-- A construct stands somewhere in a statement. -/
def Statement.Uses (s : Statement) (f : Feature) : Prop := ∃ n, s.Contains n ∧ f ∈ n.features

/-- The constructs that a dialect lacks. -/
def Dialect.lacked : Dialect → List Feature
  | sqlServer => []
  | oracle =>
    [.dateDifference .millisecond, .dateDifference .microsecond, .dateDifference .nanosecond]
  | mySql => [.groupByCube, .fullJoin, .dateDifference .nanosecond]
  | postgres => [.dateDifference .nanosecond]

/-- An error names one of some constructs, which the dialect lacks. -/
def Error.IsLackOf (e : Error) (d : Dialect) (fs : List Feature) : Prop :=
  ∃ f ∈ fs, f ∈ d.lacked ∧ e = .unsupported f d

variable {d : Dialect} {e : Error}

theorem dateDifference_mem_lacked {unit : DateUnit} :
    .dateDifference unit ∈ d.lacked ↔ (d.dateDifference? unit).isNone := by
  cases d <;> cases unit <;> decide

theorem fullJoin_mem_lacked : .fullJoin ∈ d.lacked ↔ d.hasFullJoin = false := by
  cases d <;> decide

theorem groupByCube_mem_lacked : .groupByCube ∈ d.lacked ↔ d.hasCube = false := by
  cases d <;> decide

/-! ## Constructs behind obstacles -/

theorem lack_of_mem_unitObstacles {unit : DateUnit} (h : e ∈ unitObstacles d unit) :
    e.IsLackOf d [.dateDifference unit] := by
  rw [unitObstacles] at h
  split at h
  · rename_i hnone
    exact ⟨_, List.mem_singleton_self _, dateDifference_mem_lacked.mpr hnone,
      List.mem_singleton.mp h⟩
  · simp at h

theorem lack_of_mem_joinObstacles {joinType : JoinType} (h : e ∈ joinObstacles d joinType) :
    joinType = .full ∧ e.IsLackOf d [.fullJoin] := by
  rw [joinObstacles] at h
  split at h
  · rename_i hfull
    exact ⟨hfull.1, _, List.mem_singleton_self _, fullJoin_mem_lacked.mpr hfull.2,
      List.mem_singleton.mp h⟩
  · simp at h

theorem lack_of_mem_groupObstacles {modifier : GroupModifier} {keys : List GroupKey}
    (h : e ∈ groupObstacles d modifier keys) : modifier = .cube ∧ e.IsLackOf d [.groupByCube] := by
  rw [groupObstacles] at h
  split at h
  · rename_i hcube
    exact ⟨hcube.2.1, _, List.mem_singleton_self _, groupByCube_mem_lacked.mpr hcube.2.2,
      List.mem_singleton.mp h⟩
  · simp at h

namespace Node

/-- The node that a dialect writes. -/
def forDialect (d : Dialect) (n : Node) : Node := if d.expandsPages then n.expandPages else n

theorem forDialect_expr (x : Expr) : forDialect d (expr x) = expr (x.forDialect d) := by
  unfold forDialect Expr.forDialect
  split <;> rfl

theorem forDialect_condition (c : Condition) :
    forDialect d (condition c) = condition (c.forDialect d) := by
  unfold forDialect Condition.forDialect
  split <;> rfl

theorem forDialect_select (q : Select) : forDialect d (select q) = select (q.forDialect d) := by
  unfold forDialect Select.forDialect
  split <;> rfl

/-- The own obstacles of a node that is no query are constructs that the dialect lacks. -/
theorem lack_of_mem_ownObstacles {n : Node} (hn : ∀ q, n ≠ select q) (h : e ∈ n.ownObstacles d) :
    e.IsLackOf d n.features := by
  cases n with
  | expr x =>
    cases x with
    | dateDiff unit start finish => exact lack_of_mem_unitObstacles h
    | _ => simp [ownObstacles] at h
  | fromClause f =>
    obtain ⟨j, hj, h⟩ := List.mem_flatMap.mp h
    obtain ⟨hfull, hlack⟩ := lack_of_mem_joinObstacles h
    have hex : ∃ j ∈ f.joins, j.joinType = .full := ⟨j, hj, hfull⟩
    rwa [features, if_pos hex]
  | select q => exact absurd rfl (hn q)
  | predicate | condition | tableRef => simp [ownObstacles] at h

theorem mem_obstacles_select {q : Select} (h : e ∈ q.obstacles d) :
    e ∈ pageObstacles d q.page ∨ e ∈ groupObstacles d q.groupModifier q.groupBy ∨
      ∃ c ∈ (select q).children, e ∈ c.obstacles d := by
  rcases mem_obstacles (n := select q) h with h | h
  · exact (List.mem_append.mp h).imp id .inl
  · exact .inr (.inr h)

/-- The obstacles in a valid query with expanded pages are obstacles in its expanded parts. The
query has an order if it has a page, so that its page is gone in any case. -/
theorem mem_obstacles_of_expandPages {q : Select} (hv : q.violations = [])
    (h : e ∈ q.expandPages.obstacles d) : e ∈ { q.expandParts with page := none }.obstacles d := by
  rw [Select.expandPages_eq, Select.expandOwnPage] at h
  split at h
  · rename_i hpage
    have hnone : { q.expandParts with page := none } = q.expandParts := by
      rw [← hpage]
      rfl
    rwa [hnone]
  · rename_i p hpage
    have horder : q.orderBy ≠ [] := Select.orderBy_ne_nil hv hpage
    rw [if_neg (by simpa [Select.expandParts] using horder)] at h
    exact Select.mem_obstacles_of_numberedBlocks h

/-- An obstacle in a valid query, as a dialect writes it, is in its group modifier or in a child.
The page is none: the query has an order then, and its blocks have no page. -/
theorem mem_obstacles_forDialect_select {q : Select} (hv : q.violations = [])
    (h : e ∈ (forDialect d (select q)).obstacles d) :
    e ∈ groupObstacles d q.groupModifier q.groupBy ∨
      ∃ c ∈ (select q).children, e ∈ (c.forDialect d).obstacles d := by
  cases hd : d.expandsPages with
  | false =>
    have hpage : pageObstacles d q.page = [] := by
      have : d.pagingStyle ≠ .numberedBlocks := by simpa [Dialect.expandsPages] using hd
      simp [pageObstacles, this]
    simp only [forDialect, hd, Bool.false_eq_true, if_false] at h ⊢
    rcases mem_obstacles_select h with h | h
    · simp [hpage] at h
    · exact h
  | true =>
    have hparts : e ∈ { q.expandParts with page := none }.obstacles d := by
      simp only [forDialect, hd, if_true] at h
      exact mem_obstacles_of_expandPages hv h
    simp only [forDialect, hd, if_true]
    rcases mem_obstacles_select hparts with h | h | ⟨c, hc, h⟩
    · simp [pageObstacles] at h
    · exact .inl h
    · have hc' : c ∈ (select q).children.map expandPages := by
        rw [← Select.children_expandParts]
        exact hc
      obtain ⟨m, hm, rfl⟩ := List.mem_map.mp hc'
      exact .inr ⟨m, hm, h⟩

/-- An obstacle in a valid node, as a dialect writes it, is a construct of the node that the dialect
lacks, or stands in a child. -/
theorem lack_or_child_of_mem_obstacles {n : Node} (hv : n.violations = [])
    (h : e ∈ (n.forDialect d).obstacles d) :
    e.IsLackOf d n.features ∨ ∃ c ∈ n.children, e ∈ (c.forDialect d).obstacles d := by
  by_cases hn : ∃ q, n = select q
  · obtain ⟨q, rfl⟩ := hn
    rcases mem_obstacles_forDialect_select hv h with h | h
    · obtain ⟨hcube, hlack⟩ := lack_of_mem_groupObstacles h
      exact .inl (by rwa [features, if_pos hcube])
    · exact .inr h
  · have hn : ∀ q, n ≠ select q := fun q hq => hn ⟨q, hq⟩
    unfold forDialect at h ⊢
    split at h
    · rename_i hd
      rcases mem_obstacles h with h | ⟨c, hc, h⟩
      · rw [ownObstacles_expandPages hn] at h
        exact .inl (lack_of_mem_ownObstacles hn h)
      · rw [children_expandPages hn] at hc
        obtain ⟨m, hm, rfl⟩ := List.mem_map.mp hc
        exact .inr ⟨m, hm, by rwa [if_pos hd]⟩
    · rename_i hd
      rcases mem_obstacles h with h | ⟨c, hc, h⟩
      · exact .inl (lack_of_mem_ownObstacles hn h)
      · exact .inr ⟨c, hc, by rwa [if_neg hd]⟩

/-- An obstacle in a valid node, as a dialect writes it, is a construct somewhere in it that the
dialect lacks. -/
theorem exists_lack_of_mem_obstacles {n : Node} (hv : n.violations = [])
    (h : e ∈ (n.forDialect d).obstacles d) : ∃ m, n.Contains m ∧ e.IsLackOf d m.features := by
  induction n using Node.induction with
  | step n ih =>
    rcases lack_or_child_of_mem_obstacles hv h with h | ⟨c, hc, h⟩
    · exact ⟨n, .self n, h⟩
    · obtain ⟨m, hm, hl⟩ := ih c hc (violations_of_mem_children hv hc) h
      exact ⟨m, .descend hc hm, hl⟩

end Node

/-! ## Statements -/

/-- The values that are written for a row of a bulk insert are values of the row or null. -/
theorem Insert.mem_assignments_of_mem_valuesOf {i : Insert} {fields : List String} {v : Expr}
    (h : v ∈ i.valuesOf fields) : v = .null ∨ ∃ a ∈ i.assignments, a.value = v := by
  obtain ⟨f, -, rfl⟩ := List.mem_map.mp h
  rw [Insert.valueOf?]
  cases hf : i.assignments.find? fun a => a.field == f with
  | none => exact .inl rfl
  | some a => exact .inr ⟨a, List.mem_of_find?_eq_some hf, rfl⟩

/-- An obstacle in a statement is one in a tree that it consists of, as the dialect writes it. -/
theorem Statement.mem_obstacles {s : Statement} (h : e ∈ s.obstacles d) :
    ∃ r ∈ s.roots, e ∈ (r.forDialect d).obstacles d := by
  cases s with
  | select q => exact ⟨.select q, List.mem_singleton_self _, by rwa [Node.forDialect_select]⟩
  | union u =>
    obtain ⟨m, hm, h⟩ := List.mem_flatMap.mp h
    exact ⟨.select m.query, List.mem_map.mpr ⟨m, hm, rfl⟩, by rwa [Node.forDialect_select]⟩
  | insert i =>
    obtain ⟨a, ha, h⟩ := List.mem_flatMap.mp h
    exact ⟨.expr a.value, List.mem_map.mpr ⟨a, ha, rfl⟩, by rwa [Node.forDialect_expr]⟩
  | bulkInsert b =>
    obtain ⟨rows⟩ := b
    cases rows with
    | nil => simp [obstacles, BulkInsert.obstacles] at h
    | cons first rest =>
      obtain ⟨i, hi, h⟩ := List.mem_flatMap.mp h
      obtain ⟨v, hv, h⟩ := List.mem_flatMap.mp h
      rcases Insert.mem_assignments_of_mem_valuesOf hv with rfl | ⟨a, ha, rfl⟩
      · simp [valueObstacles, Expr.forDialect, Expr.expandPages, Expr.obstacles] at h
      · exact ⟨.expr a.value, List.mem_flatMap.mpr ⟨i, hi, List.mem_map.mpr ⟨a, ha, rfl⟩⟩,
          by rwa [Node.forDialect_expr]⟩
  | update u =>
    rcases List.mem_append.mp h with h | h
    · obtain ⟨a, ha, h⟩ := List.mem_flatMap.mp h
      exact ⟨.expr a.value, List.mem_append_left _ (List.mem_map.mpr ⟨a, ha, rfl⟩),
        by rwa [Node.forDialect_expr]⟩
    · exact ⟨.condition u.filter, by simp [roots], by rwa [Node.forDialect_condition]⟩
  | delete x => exact ⟨.condition x.filter, by simp [roots], by rwa [Node.forDialect_condition]⟩

/-- A construct that keeps a valid statement from being rendered is in it. -/
theorem Statement.exists_uses_of_mem_obstacles {s : Statement} (hv : s.violations = [])
    (h : e ∈ s.obstacles d) : ∃ f ∈ d.lacked, s.Uses f ∧ e = .unsupported f d := by
  obtain ⟨r, hr, h⟩ := Statement.mem_obstacles h
  obtain ⟨m, hm, f, hf, hlacked, he⟩ :=
    Node.exists_lack_of_mem_obstacles (Statement.violations_of_mem_roots hv hr) h
  exact ⟨f, hlacked, ⟨m, ⟨r, hr, hm⟩, hf⟩, he⟩

/-- A statement without obstacles renders; otherwise it fails on the first of them. -/
theorem Statement.render_eq (d : Dialect) (s : Statement) :
    s.render d = match s.obstacles d with
      | [] => .ok (s.tokens d)
      | e :: _ => .error e := by
  unfold render
  cases s.obstacles d <;> rfl

/-- A valid statement renders, or its error names a construct that the statement uses and the
dialect lacks. So it renders if it uses no such construct, and always for SQL Server. -/
theorem Statement.render_of_validate_eq_ok (d : Dialect) (s : Statement)
    (h : s.validate = .ok ()) :
    ((∃ ts, s.render d = .ok ts) ∨
      ∃ f ∈ d.lacked, s.Uses f ∧ s.render d = .error (.unsupported f d)) ∧
    ((∀ f ∈ d.lacked, ¬s.Uses f) → ∃ ts, s.render d = .ok ts) ∧
    (d = .sqlServer → ∃ ts, s.render d = .ok ts) := by
  have hv := Statement.validate_eq_ok_iff.mp h
  have hmain : (∃ ts, s.render d = .ok ts) ∨
      ∃ f ∈ d.lacked, s.Uses f ∧ s.render d = .error (.unsupported f d) := by
    rw [Statement.render_eq]
    cases ho : s.obstacles d with
    | nil => exact .inl ⟨_, rfl⟩
    | cons e es =>
      have he : e ∈ s.obstacles d := by rw [ho]; exact List.mem_cons_self
      obtain ⟨f, hf, hu, rfl⟩ := Statement.exists_uses_of_mem_obstacles hv he
      exact .inr ⟨f, hf, hu, rfl⟩
  refine ⟨hmain, fun hfree => ?_, fun hd => ?_⟩
  · rcases hmain with hok | ⟨f, hf, hu, -⟩
    · exact hok
    · exact absurd hu (hfree f hf)
  · rcases hmain with hok | ⟨f, hf, -⟩
    · exact hok
    · subst hd
      simp [Dialect.lacked] at hf

/-- A page inside a query renders for SQL Server, which numbers its rows. -/
theorem Statement.render_nested_page :
    (select { Select.empty with source := .ofQuery .secondPage "page" }).validate = .ok () ∧
    ∃ ts, (select { Select.empty with source := .ofQuery .secondPage "page" }).render .sqlServer =
      .ok ts :=
  ⟨rfl, (Statement.render_of_validate_eq_ok .sqlServer _ rfl).2.2 rfl⟩

end SqlTree
