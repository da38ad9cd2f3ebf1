import SqlTree.Proofs.Rendering.Pieces

/-!
# What is written stands in the tokens

The tokens of a tree that is written in another one stand in its tokens without a gap. A query does
so between parentheses. In a dialect that spells out both dates of every date difference, which is
what SQL Server does, this holds at any depth.

* `Node.Shows`: a list of tokens stands in the tokens of a node.

Results:
* `Node.shows_of_mem_written`: what stands in the tokens of a written tree stands in those of the
  node.
* `Node.shows_parens_of_writes`: a query that is written in a node stands there in parentheses.
-/

namespace SqlTree

open Token

variable {us : List Token}

/-! ## Parts put together -/

namespace Token

theorem infix_intercalate {separator p : List Token} {parts : List (List Token)}
    (h : p ∈ parts) : p <:+: separator.intercalate parts := by
  induction parts with
  | nil => simp at h
  | cons q qs ih =>
    cases qs with
    | nil =>
      obtain rfl : p = q := List.mem_singleton.mp h
      simp [List.intercalate]
    | cons q' qs =>
      have hjoined : separator.intercalate (q :: q' :: qs) =
          q ++ separator ++ separator.intercalate (q' :: qs) := by
        simp [List.intercalate]
      rw [hjoined]
      rcases List.mem_cons.mp h with rfl | h
      · exact ((List.prefix_append p separator).trans (List.prefix_append _ _)).isInfix
      · exact (ih h).trans (List.suffix_append _ _).isInfix

theorem infix_words {p : List Token} {parts : List (List Token)} (h : p ∈ parts)
    (hp : us <:+: p) : us <:+: words parts :=
  hp.trans (infix_intercalate h)

theorem infix_commaList {p : List Token} {parts : List (List Token)} (h : p ∈ parts)
    (hp : us <:+: p) : us <:+: commaList parts :=
  hp.trans (infix_intercalate h)

theorem infix_parens {part : List Token} (h : us <:+: part) : us <:+: parens part :=
  h.trans ⟨[symbol .openParen], [symbol .closeParen], rfl⟩

theorem infix_cons {t : Token} {ts : List Token} (h : us <:+: ts) : us <:+: t :: ts :=
  h.trans (List.suffix_cons t ts).isInfix

theorem infix_call {name : String} {p : List Token} {args : List (List Token)} (h : p ∈ args)
    (hp : us <:+: p) : us <:+: call name args :=
  infix_cons (infix_parens (infix_commaList h hp))

theorem infix_renamed {part : List Token} {withAs : Bool} {aliasName : Option String}
    (h : us <:+: part) : us <:+: renamed part withAs aliasName := by
  cases aliasName with
  | none => exact h
  | some a => exact infix_words (by simp) h

end Token

/-! ## Nodes -/

namespace Node

/-- A list of tokens stands in those of a node, or in one of its words, whatever the namespace of
its tables is. A query is taken with its parentheses. -/
def Shows (d : Dialect) (us : List Token) : Node → Prop
  | expr e => us <:+: e.tokens d
  | predicate p => us <:+: p.tokens d
  | condition c => us <:+: c.tokens d
  | tableRef t => ∀ tableSpace, us <:+: t.tokens d tableSpace
  | fromClause f => ∀ tableSpace, ∃ p ∈ f.words d tableSpace, us <:+: p
  | select q => us <:+: parens (q.tokens d)

variable {c : Node}

theorem infix_expr {e : Expr} (hc : c ∈ e.nodes) (h : c.Shows .sqlServer us) :
    us <:+: e.tokens .sqlServer := by
  cases e with
  | function name args =>
    obtain ⟨a, ha, rfl⟩ := List.mem_map.mp hc
    rw [Expr.tokens, Expr.tokensOfAll_eq_map]
    exact infix_call (List.mem_map_of_mem ha) h
  | aggregate f arg distinct =>
    cases arg with
    | none => simp [Expr.nodes] at hc
    | some a =>
      obtain rfl : c = expr a := by simpa [Expr.nodes] using hc
      rw [Expr.tokens]
      exact infix_cons (infix_parens (infix_words (by simp) h))
  | case arms otherwise =>
    have harms : c ∈ arms.flatMap CaseArm.nodes →
        ∃ p ∈ CaseArm.wordsOfAll .sqlServer arms, us <:+: p := by
      intro hc
      obtain ⟨a, ha, hc⟩ := List.mem_flatMap.mp hc
      rw [CaseArm.wordsOfAll_eq_flatMap]
      simp only [CaseArm.nodes, List.mem_cons, List.not_mem_nil, or_false] at hc
      rcases hc with rfl | rfl
      · exact ⟨_, List.mem_flatMap.mpr ⟨a, ha, by simp⟩, h⟩
      · exact ⟨_, List.mem_flatMap.mpr ⟨a, ha, by simp⟩, h⟩
    cases otherwise with
    | none =>
      obtain ⟨p, hp, hus⟩ := harms (by simpa [Expr.nodes] using hc)
      rw [Expr.tokens]
      exact infix_words (List.mem_append_left _ (List.mem_cons_of_mem _ hp)) hus
    | some x =>
      rw [Expr.tokens]
      rcases List.mem_append.mp hc with hc | hc
      · obtain ⟨p, hp, hus⟩ := harms hc
        exact infix_words (List.mem_append_left _ (List.mem_cons_of_mem _ hp)) hus
      · obtain rfl : c = expr x := by simpa using hc
        exact infix_words (by simp) h
  | arithmetic left op right =>
    rw [Expr.tokens, operation]
    simp only [Expr.nodes, List.mem_cons, List.not_mem_nil, or_false] at hc
    rcases hc with rfl | rfl
    · exact infix_parens (infix_words (by simp) h)
    · exact infix_parens (infix_words (by simp) h)
  | dateDiff unit start finish =>
    have htokens : (Expr.dateDiff unit start finish).tokens .sqlServer =
        call "DATEDIFF" [[raw unit.keyword], start.tokens .sqlServer, finish.tokens .sqlServer] :=
      rfl
    rw [htokens]
    simp only [Expr.nodes, List.mem_cons, List.not_mem_nil, or_false] at hc
    rcases hc with rfl | rfl
    · exact infix_call (by simp) h
    · exact infix_call (by simp) h
  | ifNull value fallback =>
    rw [Expr.tokens]
    simp only [Expr.nodes, List.mem_cons, List.not_mem_nil, or_false] at hc
    rcases hc with rfl | rfl
    · exact infix_call (by simp) h
    · exact infix_call (by simp) h
  | subquery q =>
    obtain rfl : c = select q := by simpa [Expr.nodes] using hc
    exact h
  | _ => simp [Expr.nodes] at hc

theorem infix_subquery {s : Subquery} (hc : c ∈ s.nodes) (h : c.Shows .sqlServer us) :
    us <:+: parens (s.tokens .sqlServer) := by
  cases s with
  | query q =>
    obtain rfl : c = select q := by simpa [Subquery.nodes] using hc
    exact h
  | text sql => simp [Subquery.nodes] at hc

theorem infix_predicate {p : Predicate} (hc : c ∈ (predicate p).written)
    (h : c.Shows .sqlServer us) : us <:+: p.tokens .sqlServer := by
  cases p with
  | compare left op right =>
    simp only [written, children, Predicate.nodes, List.mem_cons, List.not_mem_nil, or_false] at hc
    by_cases hop : op = .sharesBits
    · subst hop
      have hbits : us <:+: Dialect.sqlServer.bitAnd (left.tokens .sqlServer)
          (right.tokens .sqlServer) := by
        rcases hc with rfl | rfl
        · exact infix_parens (infix_words (by simp) h)
        · exact infix_parens (infix_words (by simp) h)
      rw [Predicate.tokens]
      exact infix_words (by simp) hbits
    · rw [Predicate.tokens.eq_2 _ _ _ _ hop]
      rcases hc with rfl | rfl
      · exact infix_words (by simp) h
      · exact infix_words (by simp) h
  | between e low high negated =>
    simp only [written, children, Predicate.nodes, List.mem_cons, List.not_mem_nil, or_false] at hc
    rw [Predicate.tokens]
    rcases hc with rfl | rfl | rfl
    · exact infix_words (by simp) h
    · exact infix_words (by simp) h
    · exact infix_words (by simp) h
  | inList e values negated =>
    rw [written] at hc
    split at hc
    · simp at hc
    · rename_i hvalues
      obtain rfl : c = expr e := List.mem_singleton.mp hc
      rw [Predicate.tokens, Token.inList, if_neg hvalues]
      exact infix_words (by simp) h
  | inSubquery e s negated =>
    rw [Predicate.tokens]
    rcases List.mem_cons.mp hc with rfl | hc
    · exact infix_words (by simp) h
    · exact infix_words (by simp) (infix_subquery hc h)
  | isNull e negated =>
    obtain rfl : c = expr e := List.mem_singleton.mp hc
    rw [Predicate.tokens]
    exact infix_words (by simp) h
  | «exists» s negated =>
    rw [Predicate.tokens]
    exact infix_words (by simp) (infix_subquery hc h)
  | raw sql => simp [written, children, Predicate.nodes] at hc

theorem infix_condition {g : Condition} (hc : c ∈ (condition g).written)
    (h : c.Shows .sqlServer us) : us <:+: g.tokens .sqlServer := by
  obtain ⟨connective, predicates, groups⟩ := g
  rw [Condition.tokens, Predicate.tokensOfAll_eq_map, Condition.tokensOfGroups_eq_map]
  rcases List.mem_append.mp hc with hc | hc
  · obtain ⟨p, hp, rfl⟩ := List.mem_map.mp hc
    exact List.IsInfix.trans h
      (infix_intercalate (List.mem_append_left _ (List.mem_map_of_mem hp)))
  · obtain ⟨g, hg, rfl⟩ := List.mem_map.mp hc
    exact (infix_parens h).trans
      (infix_intercalate (List.mem_append_right _ (List.mem_map_of_mem hg)))

theorem infix_tableRef {t : TableRef} (hc : c ∈ t.source.nodes) (h : c.Shows .sqlServer us)
    (tableSpace : Option String) : us <:+: t.tokens .sqlServer tableSpace := by
  obtain ⟨source, aliasName⟩ := t
  cases source with
  | query q =>
    obtain rfl : c = select q := by simpa [Source.nodes] using hc
    exact infix_renamed h
  | table | queryText | aliasRef => simp [Source.nodes] at hc

theorem infix_fromClause {f : FromClause} (hc : c ∈ (fromClause f).children)
    (h : c.Shows .sqlServer us) (tableSpace : Option String) :
    ∃ p ∈ f.words .sqlServer tableSpace, us <:+: p := by
  obtain ⟨base, joins⟩ := f
  have hjoins : c ∈ joins.flatMap Join.nodes →
      ∃ p ∈ Join.wordsOfAll .sqlServer tableSpace joins, us <:+: p := by
    intro hc
    obtain ⟨j, hj, hc⟩ := List.mem_flatMap.mp hc
    rw [Join.wordsOfAll_eq_flatMap]
    obtain ⟨joinType, right, condition⟩ := j
    rcases List.mem_cons.mp hc with rfl | hc
    · exact ⟨_, List.mem_flatMap.mpr ⟨_, hj, by simp⟩, h tableSpace⟩
    · cases condition with
      | condition g =>
        obtain rfl : c = .condition g := List.mem_singleton.mp hc
        exact ⟨_, List.mem_flatMap.mpr ⟨_, hj, by simp [JoinCondition.words]⟩, h⟩
      | fields | none => simp [JoinCondition.nodes] at hc
  rcases List.mem_append.mp hc with hc | hc
  · cases base with
    | none => simp at hc
    | some base =>
      obtain rfl : c = tableRef base := by simpa using hc
      exact ⟨_, List.mem_cons_self, h tableSpace⟩
  · obtain ⟨p, hp, hus⟩ := hjoins hc
    cases base with
    | none => exact ⟨p, List.mem_cons_of_mem _ hp, hus⟩
    | some base => exact ⟨p, List.mem_cons_of_mem _ hp, hus⟩

theorem infix_select {q : Select} (hc : c ∈ (select q).written) (h : c.Shows .sqlServer us) :
    us <:+: q.tokens .sqlServer := by
  obtain ⟨items, source, filter, groupBy, groupModifier, having, orderBy, distinct, top, page,
    tableSpace⟩ := q
  rw [Select.tokens, SelectItem.tokensOfAll_eq_map]
  simp only [written, List.mem_append, List.mem_map] at hc
  rcases hc with ((⟨i, hi, rfl⟩ | hc) | hc) | hc
  · have hnonempty : ¬items.isEmpty = true := by
      intro hempty
      simp [List.isEmpty_iff.mp hempty] at hi
    have hitem : us <:+: i.tokens .sqlServer := infix_renamed h
    have hlist : us <:+: commaList (items.map (SelectItem.tokens .sqlServer)) :=
      infix_commaList (List.mem_map_of_mem hi) hitem
    rw [if_neg hnonempty]
    exact infix_words (by simp) hlist
  · split at hc
    · simp at hc
    · rename_i hsource
      obtain rfl : c = fromClause source := List.mem_singleton.mp hc
      obtain ⟨p, hp, hus⟩ := h tableSpace
      exact infix_words (by simp [hsource, hp]) hus
  · split at hc
    · simp at hc
    · rename_i hfilter
      obtain rfl : c = condition filter := List.mem_singleton.mp hc
      exact infix_words (by simp [phrase, hfilter]) h
  · split at hc
    · simp at hc
    · rename_i hhaving
      obtain rfl : c = condition having := List.mem_singleton.mp hc
      exact infix_words (by simp [phrase, hhaving]) h

/-- What stands in the tokens of a tree that is written in a node stands in those of the node. -/
theorem shows_of_mem_written {n : Node} (hc : c ∈ n.written) (h : c.Shows .sqlServer us) :
    n.Shows .sqlServer us := by
  cases n with
  | expr e => exact infix_expr hc h
  | predicate p => exact infix_predicate hc h
  | condition g => exact infix_condition hc h
  | tableRef t => exact infix_tableRef hc h
  | fromClause f => exact infix_fromClause hc h
  | select q => exact infix_parens (infix_select hc h)

/-- A query that is written in a node stands there in parentheses. -/
theorem shows_parens_of_writes {n : Node} {q : Select} (h : n.Writes (select q)) :
    n.Shows .sqlServer (parens (q.tokens .sqlServer)) := by
  generalize hm : select q = m at h
  induction h with
  | self n =>
    subst hm
    exact List.infix_refl _
  | descend hc _ ih => exact shows_of_mem_written hc (ih hm)

end Node

end SqlTree
