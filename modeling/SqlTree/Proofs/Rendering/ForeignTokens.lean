import SqlTree.Proofs.Rendering.Clauses
import SqlTree.Proofs.Rendering.StatementPieces

/-!
# Tokens of other dialects

Rows are limited, groups are given subtotals and sources are replaced in a different way by each
dialect. A statement that renders for a dialect has none of the tokens by which the others do so,
however deep its queries are nested.

* `Dialect.foreignTokens`: the tokens that a dialect does not know.

Results:
* `Node.obstacles_subset_of_mem_written`: the obstacles in what is written in a node are in the
  node.
* `Node.tokensHave_noForeign`: the tokens of a node without obstacles hold no foreign token.
* `Statement.notMem_foreignTokens_of_render`: nor do the tokens of a statement that renders.
-/

namespace SqlTree

open Token

/-- The tokens for limits, subtotals, bits and missing sources that a dialect does not know. -/
def Dialect.foreignTokens : Dialect → List Token
  | sqlServer => [.keyword .LIMIT, .keyword .OFFSET, .keyword .FETCH, .keyword .NEXT,
      .keyword .ONLY, .keyword .DUAL]
  | oracle => [.keyword .TOP, .keyword .LIMIT, .keyword .OFFSET, .keyword .NEXT, .keyword .WITH,
      .symbol .bitAnd]
  | mySql => [.keyword .TOP, .keyword .FETCH, .keyword .CUBE, .keyword .FULL, .keyword .DUAL]
  | postgres => [.keyword .TOP, .keyword .FETCH, .keyword .WITH, .keyword .DUAL]

variable {d : Dialect}

/-! ## Obstacles of what is written -/

namespace Node

theorem ownObstacles_subset (n : Node) : n.ownObstacles d ⊆ n.obstacles d := by
  intro e he
  cases n with
  | expr x =>
    cases x with
    | dateDiff unit start finish => exact List.mem_append_right _ he
    | _ => simp [ownObstacles] at he
  | fromClause f =>
    obtain ⟨base, joins⟩ := f
    have hjoins : e ∈ Join.obstaclesOfAll d joins := by
      rw [Join.obstaclesOfAll_eq_flatMap]
      obtain ⟨j, hj, he⟩ := List.mem_flatMap.mp he
      exact List.mem_flatMap.mpr ⟨j, hj, by simp [he]⟩
    cases base with
    | none => exact hjoins
    | some base => exact List.mem_append_right _ hjoins
  | select q =>
    obtain ⟨items, source, filter, groupBy, groupModifier, having, _, _, _, page, _⟩ := q
    simp only [ownObstacles, List.mem_append] at he
    simp only [obstacles, Select.obstacles, List.mem_append]
    grind
  | predicate | condition | tableRef => simp [ownObstacles] at he

theorem obstacles_subset_expr {x : Expr} {c : Node} (hc : c ∈ x.nodes) :
    c.obstacles d ⊆ x.obstacles d := by
  intro e he
  cases x with
  | function name args =>
    obtain ⟨a, ha, rfl⟩ := List.mem_map.mp hc
    rw [Expr.obstacles, Expr.obstaclesOfAll_eq_flatMap]
    exact List.mem_flatMap.mpr ⟨a, ha, he⟩
  | aggregate f arg distinct =>
    cases arg with
    | none => simp [Expr.nodes] at hc
    | some a =>
      obtain rfl : c = expr a := by simpa [Expr.nodes] using hc
      exact he
  | case arms otherwise =>
    have harms : c ∈ arms.flatMap CaseArm.nodes → e ∈ CaseArm.obstaclesOfAll d arms := by
      intro hc
      obtain ⟨a, ha, hc⟩ := List.mem_flatMap.mp hc
      rw [CaseArm.obstaclesOfAll_eq_flatMap]
      refine List.mem_flatMap.mpr ⟨a, ha, ?_⟩
      simp only [CaseArm.nodes, List.mem_cons, List.not_mem_nil, or_false] at hc
      rcases hc with rfl | rfl
      · exact List.mem_append_left _ he
      · exact List.mem_append_right _ he
    cases otherwise with
    | none => exact harms (by simpa [Expr.nodes] using hc)
    | some x =>
      rcases List.mem_append.mp hc with hc | hc
      · exact List.mem_append_left _ (harms hc)
      · obtain rfl : c = expr x := by simpa using hc
        exact List.mem_append_right _ he
  | arithmetic left op right | ifNull left right =>
    simp only [Expr.nodes, List.mem_cons, List.not_mem_nil, or_false] at hc
    rcases hc with rfl | rfl
    · exact List.mem_append_left _ he
    · exact List.mem_append_right _ he
  | dateDiff unit start finish =>
    simp only [Expr.nodes, List.mem_cons, List.not_mem_nil, or_false] at hc
    refine List.mem_append_left _ ?_
    rcases hc with rfl | rfl
    · exact List.mem_append_left _ he
    · exact List.mem_append_right _ he
  | subquery q =>
    obtain rfl : c = select q := by simpa [Expr.nodes] using hc
    exact he
  | _ => simp [Expr.nodes] at hc

theorem obstacles_subset_subquery {s : Subquery} {c : Node} (hc : c ∈ s.nodes) :
    c.obstacles d ⊆ s.obstacles d := by
  cases s with
  | query q =>
    obtain rfl : c = select q := by simpa [Subquery.nodes] using hc
    exact List.Subset.refl _
  | text sql => simp [Subquery.nodes] at hc

theorem obstacles_subset_predicate {p : Predicate} {c : Node} (hc : c ∈ (predicate p).written) :
    c.obstacles d ⊆ p.obstacles d := by
  intro e he
  cases p with
  | compare left op right =>
    simp only [written, children, Predicate.nodes, List.mem_cons, List.not_mem_nil, or_false] at hc
    rcases hc with rfl | rfl
    · exact List.mem_append_left _ he
    · exact List.mem_append_right _ he
  | between x low high negated =>
    simp only [written, children, Predicate.nodes, List.mem_cons, List.not_mem_nil, or_false] at hc
    rcases hc with rfl | rfl | rfl
    · exact List.mem_append_left _ (List.mem_append_left _ he)
    · exact List.mem_append_left _ (List.mem_append_right _ he)
    · exact List.mem_append_right _ he
  | inList x values negated =>
    rw [written] at hc
    split at hc
    · simp at hc
    · rename_i hvalues
      obtain rfl : c = expr x := List.mem_singleton.mp hc
      rw [Predicate.obstacles, if_neg hvalues]
      exact he
  | inSubquery x s negated =>
    rcases List.mem_cons.mp hc with rfl | hc
    · exact List.mem_append_left _ he
    · exact List.mem_append_right _ (obstacles_subset_subquery hc he)
  | isNull x negated =>
    obtain rfl : c = expr x := List.mem_singleton.mp hc
    exact he
  | «exists» s negated => exact obstacles_subset_subquery hc he
  | raw sql => simp [written, children, Predicate.nodes] at hc

theorem obstacles_subset_fromClause {f : FromClause} {c : Node}
    (hc : c ∈ (fromClause f).children) : c.obstacles d ⊆ f.obstacles d := by
  intro e he
  obtain ⟨base, joins⟩ := f
  have hjoins : c ∈ joins.flatMap Join.nodes → e ∈ Join.obstaclesOfAll d joins := by
    intro hc
    obtain ⟨j, hj, hc⟩ := List.mem_flatMap.mp hc
    rw [Join.obstaclesOfAll_eq_flatMap]
    refine List.mem_flatMap.mpr ⟨j, hj, ?_⟩
    rcases List.mem_cons.mp hc with rfl | hc
    · exact List.mem_append_left _ (List.mem_append_right _ he)
    · refine List.mem_append_right _ ?_
      obtain ⟨joinType, right, condition⟩ := j
      cases condition with
      | condition g =>
        obtain rfl : c = .condition g := List.mem_singleton.mp hc
        exact he
      | fields | none => simp [JoinCondition.nodes] at hc
  rcases List.mem_append.mp hc with hc | hc
  · cases base with
    | none => simp at hc
    | some base =>
      obtain rfl : c = tableRef base := List.mem_singleton.mp hc
      exact List.mem_append_left _ he
  · cases base with
    | none => exact hjoins hc
    | some base => exact List.mem_append_right _ (hjoins hc)

theorem obstacles_subset_select {q : Select} {c : Node} (hc : c ∈ (select q).written) :
    c.obstacles d ⊆ q.obstacles d := by
  intro e he
  obtain ⟨items, source, filter, groupBy, groupModifier, having, _, _, _, page, _⟩ := q
  simp only [written, List.mem_append, List.mem_map] at hc
  simp only [Select.obstacles, List.mem_append, SelectItem.obstaclesOfAll_eq_flatMap]
  rcases hc with ((⟨i, hi, rfl⟩ | hc) | hc) | hc
  · have hitems : e ∈ items.flatMap fun i => i.expr.obstacles d :=
      List.mem_flatMap.mpr ⟨i, hi, he⟩
    simp [hitems]
  · split at hc
    · simp at hc
    · rename_i hsource
      obtain rfl : c = fromClause source := List.mem_singleton.mp hc
      have hmem : e ∈ if source.isEmpty then [] else source.obstacles d := by
        rw [if_neg hsource]
        exact he
      simp [hmem]
  · split at hc
    · simp at hc
    · obtain rfl : c = condition filter := List.mem_singleton.mp hc
      have hmem : e ∈ filter.obstacles d := he
      simp [hmem]
  · split at hc
    · simp at hc
    · obtain rfl : c = condition having := List.mem_singleton.mp hc
      have hmem : e ∈ having.obstacles d := he
      simp [hmem]

/-- The obstacles in what is written in a node are in the node. -/
theorem obstacles_subset_of_mem_written {n c : Node} (hc : c ∈ n.written) :
    c.obstacles d ⊆ n.obstacles d := by
  cases n with
  | expr x => exact obstacles_subset_expr hc
  | predicate p => exact obstacles_subset_predicate hc
  | condition g =>
    intro e he
    obtain ⟨connective, predicates, groups⟩ := g
    rcases List.mem_append.mp hc with hc | hc
    · obtain ⟨p, hp, rfl⟩ := List.mem_map.mp hc
      refine List.mem_append_left _ ?_
      rw [Predicate.obstaclesOfAll_eq_flatMap]
      exact List.mem_flatMap.mpr ⟨p, hp, he⟩
    · obtain ⟨g, hg, rfl⟩ := List.mem_map.mp hc
      refine List.mem_append_right _ ?_
      rw [Condition.obstaclesOfAll_eq_flatMap]
      exact List.mem_flatMap.mpr ⟨g, (List.mem_filter.mp hg).1, he⟩
  | tableRef t =>
    obtain ⟨source, aliasName⟩ := t
    cases source with
    | query q =>
      obtain rfl : c = select q := List.mem_singleton.mp hc
      exact List.Subset.refl _
    | table | queryText | aliasRef => simp [written, children, Source.nodes] at hc
  | fromClause f => exact obstacles_subset_fromClause hc
  | select q => exact obstacles_subset_select hc

/-! ## Tokens without foreign ones -/

theorem keyword_notMem_foreignTokens {n : Node} (h : n.ownObstacles d = []) {k : Keyword}
    (hk : k ∈ n.keywords d) : keyword k ∉ d.foreignTokens := by
  cases n with
  | expr x =>
    cases x with
    | rowNumber keys =>
      obtain rfl : k = .ORDER_BY := List.mem_singleton.mp hk
      cases d <;> decide
    | _ => simp [keywords] at hk
  | fromClause f =>
    obtain ⟨j, hj, hk⟩ := List.mem_flatMap.mp hk
    split at hk
    · rename_i hfull
      obtain rfl : k = .FULL := List.mem_singleton.mp hk
      have hjoin : joinObstacles d j.joinType = [] := List.flatMap_eq_nil_iff.mp h j hj
      have hd : d ≠ .mySql := by
        rintro rfl
        simp [joinObstacles, hfull, Dialect.hasFullJoin] at hjoin
      cases d with
      | mySql => exact absurd rfl hd
      | _ => decide
    · simp at hk
  | select q =>
    have hgroup := (List.append_eq_nil_iff.mp h).2
    simp only [keywords, List.mem_append] at hk
    rcases hk with ((hk | hk) | hk) | hk
    · cases d <;> revert k <;> decide
    · cases d with
      | sqlServer | mySql => revert k; decide
      | oracle | postgres => simp [Dialect.groupModifierStyle] at hk
    · split at hk
      · rename_i hcube
        obtain rfl : k = .CUBE := List.mem_singleton.mp hk
        have hd : d ≠ .mySql := by
          rintro rfl
          simp [groupObstacles, hcube, Dialect.hasCube] at hgroup
        cases d with
        | mySql => exact absurd rfl hd
        | _ => decide
      · simp at hk
    · split at hk
      · obtain rfl : k = .ORDER_BY := List.mem_singleton.mp hk
        cases d <;> decide
      · simp at hk
  | predicate | condition | tableRef => simp [keywords] at hk

end Node

/-- A list of tokens holds none that is foreign to a dialect. -/
def Dialect.NoForeign (d : Dialect) (ts : List Token) : Prop := ∀ t ∈ ts, t ∉ d.foreignTokens

theorem Dialect.isPlain_of_foreign {t : Token} (h : t ∈ d.foreignTokens) : t.isPlain = false := by
  cases d <;> revert t <;> decide

theorem Dialect.closed_noForeign (d : Dialect) : Closed d.NoForeign where
  nil := by simp [NoForeign]
  append hts hus := List.forall_mem_append.mpr ⟨hts, hus⟩
  plain := by
    intro t ht
    refine List.forall_mem_singleton.mpr fun h => ?_
    rw [isPlain_of_foreign h] at ht
    contradiction

/-- The tokens of a node without obstacles hold no foreign token. -/
theorem Node.tokensHave_noForeign {n : Node} (h : n.obstacles d = []) :
    n.TokensHave d d.NoForeign := by
  induction n using Node.induction with
  | step n ih =>
    have hown : n.ownObstacles d = [] := List.subset_nil.mp (h ▸ ownObstacles_subset n)
    refine tokensHave_of_written d.closed_noForeign ?_ fun c hc => ?_
    · refine closed_piecesHave d.closed_noForeign (fun k hk => ?_) (fun c _ => ?_) fun hd => ?_
      · exact List.forall_mem_singleton.mpr (keyword_notMem_foreignTokens hown hk)
      · refine List.forall_mem_singleton.mpr ?_
        cases d <;> simp [Dialect.foreignTokens]
      · refine List.forall_mem_singleton.mpr ?_
        cases d with
        | oracle => exact absurd rfl hd
        | _ => decide
    · exact ih c (written_subset_children n hc)
        (List.subset_nil.mp (h ▸ obstacles_subset_of_mem_written hc))

theorem Statement.obstacles_eq_nil_of_render {s : Statement} {ts : List Token}
    (h : s.render d = .ok ts) : s.obstacles d = [] :=
  (firstObstacle_map_eq_ok_iff.mp h).1

/-- Only Oracle selects rows, and `DUAL` is its own source. -/
theorem Dialect.noForeign_dual (h : d.hasRowLists = false) : d.NoForeign [keyword .DUAL] := by
  obtain rfl : d = .oracle := by simpa [hasRowLists] using h
  exact List.forall_mem_singleton.mpr (by decide)

/-- A statement that renders for a dialect has no token, at any depth, by which only other dialects
limit rows, add subtotals, compare bits or stand in for a source. -/
theorem Statement.notMem_foreignTokens_of_render {s : Statement} {ts : List Token}
    (h : s.render d = .ok ts) : ∀ t ∈ d.foreignTokens, t ∉ ts := by
  have hobstacles : s.obstacles d = [] := obstacles_eq_nil_of_render h
  rw [obstacles_eq_flatMap] at hobstacles
  have hnone : d.NoForeign (s.tokens d) :=
    closed_tokens_of_written d.closed_noForeign Dialect.noForeign_dual fun n hn =>
      Node.tokensHave_noForeign (List.flatMap_eq_nil_iff.mp hobstacles n hn)
  rw [tokens_eq_of_render d h] at hnone
  intro t ht hts
  exact hnone t hts ht

/-- A limit around a page has no foreign token for Oracle, which numbers the rows of the page. -/
theorem Statement.notMem_foreignTokens_limited_page :
    ∃ ts, (select { Select.empty with source := .ofQuery .secondPage "page", top := some 1 }).render
        .oracle = .ok ts ∧
      Token.keyword .FETCH ∈ ts ∧ ∀ t ∈ Dialect.oracle.foreignTokens, t ∉ ts := by
  let outer : Select :=
    { Select.empty with source := .ofQuery .secondPage "page", top := some 1 }
  have hrender : (select outer).render .oracle = .ok ((select outer).tokens .oracle) := by
    rw [Statement.render_eq, show (select outer).obstacles .oracle = [] by decide +kernel]
  exact ⟨_, hrender, by decide +kernel, notMem_foreignTokens_of_render hrender⟩

end SqlTree
