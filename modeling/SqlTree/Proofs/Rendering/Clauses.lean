import SqlTree.Proofs.Rendering.Nesting
import SqlTree.Proofs.Rendering.Pages

/-!
# The clauses of a rendered query

Whatever stands inside a query hides its own clauses in parentheses, so the clauses at depth 0 are
those of the query itself.

Results:
* `Select.outline_tokens`: the clauses at depth 0 of the tokens of a query.
* `Statement.outline_tokens`: the parentheses in the tokens of a statement pair up.
-/

namespace SqlTree

open Token

/-- The clauses that a query has before its limits. -/
def Select.clauses (q : Select) : List Keyword :=
  [.SELECT] ++ (if q.source.isEmpty then [] else [.FROM]) ++
    (if q.filter.isEmpty then [] else [.WHERE]) ++
    (if q.groupBy.isEmpty then [] else [.GROUP_BY]) ++
    (if q.having.isEmpty then [] else [.HAVING]) ++ (if q.orderBy.isEmpty then [] else [.ORDER_BY])

/-- The clauses of a query that limit its rows. -/
def Keyword.limits : List Keyword := [LIMIT, OFFSET, FETCH]

variable (d : Dialect)

/-! ## Clauses -/

theorem outline_selectWords (distinct : Bool) (top : Option UInt64) :
    Outline (words (selectWords d distinct top)) [.SELECT] := by
  refine outline_clause (by decide) fun p hp => ?_
  rcases List.mem_append.mp hp with hp | hp
  · exact sealed_of_mem_wordIf (by decide) hp
  · split at hp
    · simp only [List.mem_cons, List.not_mem_nil, or_false] at hp
      rcases hp with rfl | rfl <;> simp [Keyword.clauses, count, integer]
    · exact absurd hp List.not_mem_nil

theorem outline_phrase {k : Keyword} (hk : k ∈ Keyword.clauses) (isEmpty : Bool) {c : List Token}
    (hc : Sealed c) : Outline (words (phrase k isEmpty c)) (if isEmpty then [] else [k]) := by
  cases isEmpty with
  | true => exact .nil
  | false => exact outline_clause hk (by simpa using hc)

theorem sealed_groupTokens (modifier : GroupModifier) (keys : List GroupKey) :
    Sealed (d.groupTokens modifier keys) := by
  have hkeys : Sealed (commaList (keys.map GroupKey.tokens)) := by simp
  have hkeyword : ∀ k, modifier.keyword? = some k → k ∉ Keyword.clauses := by
    cases modifier <;> decide
  unfold Dialect.groupTokens
  split
  · exact hkeys
  · rename_i k hk _
    have hk : Sealed [keyword k] := (sealed_keyword_cons (hkeyword k hk)).mpr sealed_nil
    exact sealed_words (by simp [hkeys, hk, Keyword.clauses])
  · rename_i k hk _
    exact (sealed_keyword_cons (hkeyword k hk)).mpr (sealed_parens hkeys)

theorem outline_groupWords (modifier : GroupModifier) (keys : List GroupKey) :
    Outline (words (groupWords d modifier keys)) (if keys.isEmpty then [] else [.GROUP_BY]) := by
  unfold groupWords
  split
  · exact .nil
  · exact outline_clause (by decide) (by simp [sealed_groupTokens])

theorem outline_orderWords (keys : List SortKey) :
    Outline (words (orderWords keys)) (if keys.isEmpty then [] else [.ORDER_BY]) := by
  unfold orderWords
  split
  · exact .nil
  · exact outline_clause (by decide) (by simp)

/-- A limit and an offset are clauses of their own. -/
theorem outline_limitWords (limit offset : Option UInt64) :
    ∃ ls, ls.Sublist Keyword.limits ∧ Outline (words (Dialect.limitWords limit offset)) ls := by
  have hlimit (n : UInt64) : Outline (words [[keyword .LIMIT], [count n]]) [.LIMIT] :=
    outline_clause (by decide) (by simp [count, integer])
  have hoffset (m : UInt64) : Outline (words [[keyword .OFFSET], [count m]]) [.OFFSET] :=
    outline_clause (by decide) (by simp [count, integer])
  cases limit with
  | none =>
    cases offset with
    | none => exact ⟨[], List.nil_sublist _, .nil⟩
    | some m => exact ⟨[.OFFSET], by decide, hoffset m⟩
  | some n =>
    cases offset with
    | none => exact ⟨[.LIMIT], by decide, hlimit n⟩
    | some m => exact ⟨[.LIMIT, .OFFSET], by decide, (hlimit n).words_append (hoffset m)⟩

/-- Skipping rows and fetching rows are clauses of their own. -/
theorem outline_fetchWords (limit offset : Option UInt64) :
    ∃ ls, ls.Sublist Keyword.limits ∧ Outline (words (Dialect.fetchWords limit offset)) ls := by
  have hoffset (m : UInt64) :
      Outline (words [[keyword .OFFSET], [count m], [keyword .ROWS]]) [.OFFSET] :=
    outline_clause (by decide) (by simp [count, integer, Keyword.clauses])
  have hlimit (next : Bool) (n : UInt64) :
      Outline (words [[keyword .FETCH], [keyword (if next then .NEXT else .FIRST)], [count n],
        [keyword .ROWS], [keyword .ONLY]]) [.FETCH] := by
    refine outline_clause (by decide) ?_
    cases next <;> simp [count, integer, Keyword.clauses]
  cases offset with
  | none =>
    cases limit with
    | none => exact ⟨[], List.nil_sublist _, .nil⟩
    | some n => exact ⟨[.FETCH], by decide, hlimit false n⟩
  | some m =>
    cases limit with
    | none => exact ⟨[.OFFSET], by decide, hoffset m⟩
    | some n => exact ⟨[.OFFSET, .FETCH], by decide, (hoffset m).words_append (hlimit true n)⟩

theorem outline_limitingWords (top : Option UInt64) (page : Option Page) :
    ∃ ls, ls.Sublist Keyword.limits ∧ Outline (words (limitingWords d top page)) ls := by
  have hrow : ∀ limit offset, ∃ ls, ls.Sublist Keyword.limits ∧
      Outline (words (d.rowWords limit offset)) ls := by
    intro limit offset
    unfold Dialect.rowWords
    split
    · exact outline_fetchWords limit offset
    · exact outline_limitWords limit offset
  unfold limitingWords
  split
  · exact hrow _ _
  · exact hrow _ _
  · exact ⟨[], List.nil_sublist _, .nil⟩

theorem sealed_compareOp {op : CompareOp} : Sealed [op.token] := by
  cases op <;> simp [CompareOp.token, Keyword.clauses]

theorem sealed_of_mem_joinTypeWords {joinType : JoinType} {p : List Token}
    (h : p ∈ joinType.words) : Sealed p := by
  cases joinType <;> simp [JoinType.words] at h <;> rcases h with rfl | rfl <;>
    simp [Keyword.clauses]

/-- A query of parts that show no clause shows its own ones, and what limits its rows. -/
theorem Select.outline_of_sealed (q : Select) {ls : List Keyword}
    (hitems : ∀ p ∈ SelectItem.tokensOfAll d q.items, Sealed p)
    (hsource : ∀ p ∈ q.source.words d q.tableSpace, Sealed p)
    (hfilter : Sealed (q.filter.tokens d)) (hhaving : Sealed (q.having.tokens d))
    (hlimits : Outline (words (limitingWords d q.top q.page)) ls) :
    Outline (q.tokens d) (q.clauses ++ ls) := by
  obtain ⟨items, source, filter, groupBy, groupModifier, having, orderBy, distinct, top, page,
    tableSpace⟩ := q
  have hitems : Sealed (words [if items.isEmpty then [symbol .star]
      else commaList (SelectItem.tokensOfAll d items)]) := by
    rw [words_singleton]
    split
    · simp
    · exact sealed_commaList hitems
  have hsource : Outline
      (words (if source.isEmpty then [] else [keyword .FROM] :: source.words d tableSpace))
      (if source.isEmpty then [] else [.FROM]) := by
    split
    · exact .nil
    · exact outline_clause (by decide) hsource
  have hfilter := outline_phrase (k := .WHERE) (by decide) filter.isEmpty hfilter
  have hhaving := outline_phrase (k := .HAVING) (by decide) having.isEmpty hhaving
  have h := (((((((outline_selectWords d distinct top).words_append hitems).words_append
    hsource).words_append hfilter).words_append
    (outline_groupWords d groupModifier groupBy)).words_append hhaving).words_append
    (outline_orderWords orderBy)).words_append hlimits
  simpa [Select.tokens, Select.clauses] using h

/-! ## Trees -/

mutual

/-- An expression shows no clause. -/
theorem Expr.sealed_tokens : ∀ e : Expr, Sealed (e.tokens d)
  | .field table name => sealed_field table name
  | .constant _ | .parameter _ | .raw _ | .star none | .star (some _) | .null => by
    simp [Expr.tokens]
  | .function name args => by
    rw [Expr.tokens]
    exact sealed_call (Expr.sealed_of_mem_tokensOfAll args)
  | .aggregate f none distinct => by
    rw [Expr.tokens, sealed_function_cons]
    exact sealed_parens (sealed_words (List.forall_mem_append.mpr
      ⟨fun _ => sealed_of_mem_wordIf (by decide), by simp⟩))
  | .aggregate f (some arg) distinct => by
    rw [Expr.tokens, sealed_function_cons]
    exact sealed_parens (sealed_words (List.forall_mem_append.mpr
      ⟨fun _ => sealed_of_mem_wordIf (by decide), by simp [Expr.sealed_tokens arg]⟩))
  | .case arms none => by
    rw [Expr.tokens]
    refine sealed_words (List.forall_mem_append.mpr ⟨List.forall_mem_cons.mpr ⟨?_,
      CaseArm.sealed_of_mem_wordsOfAll arms⟩, ?_⟩) <;> simp [Keyword.clauses]
  | .case arms (some e) => by
    rw [Expr.tokens]
    refine sealed_words (List.forall_mem_append.mpr ⟨List.forall_mem_cons.mpr ⟨?_,
      CaseArm.sealed_of_mem_wordsOfAll arms⟩, ?_⟩) <;> simp [Keyword.clauses, Expr.sealed_tokens e]
  | .arithmetic left op right => by
    rw [Expr.tokens]
    refine sealed_operation (Expr.sealed_tokens left) ?_ (Expr.sealed_tokens right)
    cases op <;> simp [ArithmeticOp.token]
  | .dateDiff unit start finish => by
    rw [Expr.tokens]
    split
    · exact Formula.sealed_tokens (Expr.sealed_tokens start) (Expr.sealed_tokens finish) _
    · exact sealed_nil
  | .ifNull value fallback => by
    rw [Expr.tokens]
    exact sealed_call (by simp [Expr.sealed_tokens value, Expr.sealed_tokens fallback])
  | .subquery q => by
    obtain ⟨ls, -, h⟩ := Select.outline_tokens q
    rw [Expr.tokens]
    exact h.parens
  | .rowNumber orderBy => by
    have hkeys : Sealed (commaList (orderBy.map SortKey.tokens)) := by simp
    have horder : Sealed (parens (words [[keyword .ORDER_BY],
        commaList (orderBy.map SortKey.tokens)])) :=
      (outline_clause (by decide) (List.forall_mem_singleton.mpr hkeys)).parens
    have hnumber : Sealed (Token.function "ROW_NUMBER" :: parens []) :=
      (sealed_function_cons _).mpr (sealed_parens sealed_nil)
    rw [Expr.tokens]
    exact sealed_words (by simp [Keyword.clauses, horder, hnumber])

theorem Expr.sealed_of_mem_tokensOfAll :
    ∀ es : List Expr, ∀ p ∈ Expr.tokensOfAll d es, Sealed p
  | [], _, hp => by simp [Expr.tokensOfAll] at hp
  | e :: es, p, hp => by
    rcases List.mem_cons.mp hp with rfl | hp
    · exact Expr.sealed_tokens e
    · exact Expr.sealed_of_mem_tokensOfAll es p hp

theorem CaseArm.sealed_of_mem_wordsOfAll :
    ∀ arms : List CaseArm, ∀ p ∈ CaseArm.wordsOfAll d arms, Sealed p
  | [], _, hp => by simp [CaseArm.wordsOfAll] at hp
  | ⟨condition, result⟩ :: arms, p, hp => by
    rcases List.mem_append.mp hp with hp | hp
    · simp only [List.mem_cons, List.not_mem_nil, or_false] at hp
      rcases hp with rfl | rfl | rfl | rfl
      · simp [Keyword.clauses]
      · exact Condition.sealed_tokens condition
      · simp [Keyword.clauses]
      · exact Expr.sealed_tokens result
    · exact CaseArm.sealed_of_mem_wordsOfAll arms p hp

/-- A subquery is hidden by parentheses around it. -/
theorem Subquery.sealed_parens_tokens : ∀ s : Subquery, Sealed (parens (s.tokens d))
  | .query q => by
    obtain ⟨ls, -, h⟩ := Select.outline_tokens q
    exact h.parens
  | .text sql => sealed_parens (by simp [Subquery.tokens])

/-- A predicate shows no clause. -/
theorem Predicate.sealed_tokens : ∀ p : Predicate, Sealed (p.tokens d)
  | .compare left op right => by
    have hleft := Expr.sealed_tokens left
    have hright := Expr.sealed_tokens right
    by_cases hop : op = .sharesBits
    · subst hop
      rw [Predicate.tokens]
      exact sealed_words (by simp [sealed_bitAnd d hleft hright, integer])
    · rw [Predicate.tokens.eq_2 _ _ _ _ hop]
      exact sealed_words (by simp [hleft, hright, sealed_compareOp])
  | .between e low high negated => by
    rw [Predicate.tokens]
    refine sealed_words (List.forall_mem_append.mpr ⟨List.forall_mem_cons.mpr
      ⟨Expr.sealed_tokens e, fun _ => sealed_of_mem_wordIf (by decide)⟩, ?_⟩)
    simp [Keyword.clauses, Expr.sealed_tokens low, Expr.sealed_tokens high]
  | .inList e values negated => sealed_inList (Expr.sealed_tokens e) values negated
  | .inSubquery e s negated => by
    rw [Predicate.tokens]
    refine sealed_words (List.forall_mem_append.mpr ⟨List.forall_mem_cons.mpr
      ⟨Expr.sealed_tokens e, fun _ => sealed_of_mem_wordIf (by decide)⟩, ?_⟩)
    simp [Keyword.clauses, Subquery.sealed_parens_tokens s]
  | .isNull e negated => by
    rw [Predicate.tokens]
    cases negated <;> exact sealed_words (by simp [Keyword.clauses, Expr.sealed_tokens e])
  | .exists s negated => by
    rw [Predicate.tokens]
    refine sealed_words (List.forall_mem_append.mpr
      ⟨fun _ => sealed_of_mem_wordIf (by decide), ?_⟩)
    simp [Keyword.clauses, Subquery.sealed_parens_tokens s]
  | .raw sql => by simp [Predicate.tokens]

theorem Predicate.sealed_of_mem_tokensOfAll :
    ∀ ps : List Predicate, ∀ p ∈ Predicate.tokensOfAll d ps, Sealed p
  | [], _, hp => by simp [Predicate.tokensOfAll] at hp
  | q :: qs, p, hp => by
    rcases List.mem_cons.mp hp with rfl | hp
    · exact Predicate.sealed_tokens q
    · exact Predicate.sealed_of_mem_tokensOfAll qs p hp

/-- A condition shows no clause. -/
theorem Condition.sealed_tokens : ∀ c : Condition, Sealed (c.tokens d)
  | ⟨connective, predicates, groups⟩ => by
    rw [Condition.tokens]
    refine Sealed.intercalate ?_ (List.forall_mem_append.mpr
      ⟨Predicate.sealed_of_mem_tokensOfAll predicates,
        Condition.sealed_of_mem_tokensOfGroups groups⟩)
    cases connective <;> simp [Connective.keyword, Keyword.clauses]

theorem Condition.sealed_of_mem_tokensOfGroups :
    ∀ gs : List Condition, ∀ p ∈ Condition.tokensOfGroups d gs, Sealed p
  | [], _, hp => by simp [Condition.tokensOfGroups] at hp
  | g :: gs, p, hp => by
    rw [Condition.tokensOfGroups] at hp
    split at hp
    · exact Condition.sealed_of_mem_tokensOfGroups gs p hp
    · rcases List.mem_cons.mp hp with rfl | hp
      · exact sealed_parens (Condition.sealed_tokens g)
      · exact Condition.sealed_of_mem_tokensOfGroups gs p hp

theorem Source.sealed_tokens (tableSpace : Option String) :
    ∀ s : Source, Sealed (s.tokens d tableSpace)
  | .table _ _ | .aliasRef _ => by simp [Source.tokens]
  | .query q => by
    obtain ⟨ls, -, h⟩ := Select.outline_tokens q
    exact h.parens
  | .queryText sql => sealed_parens (by simp)

/-- A source shows no clause. -/
theorem TableRef.sealed_tokens (tableSpace : Option String) :
    ∀ t : TableRef, Sealed (t.tokens d tableSpace)
  | ⟨source, _⟩ => sealed_renamed (Source.sealed_tokens tableSpace source)

theorem JoinCondition.sealed_of_mem_words (right : String) :
    ∀ c : JoinCondition, ∀ p ∈ c.words d right, Sealed p
  | .fields left pairs => by
    simp [JoinCondition.words, Keyword.clauses, sealed_fieldEquations]
  | .condition c => by
    simp [JoinCondition.words, Keyword.clauses, Condition.sealed_tokens c]
  | .none => by simp [JoinCondition.words]

theorem Join.sealed_of_mem_wordsOfAll (tableSpace : Option String) :
    ∀ js : List Join, ∀ p ∈ Join.wordsOfAll d tableSpace js, Sealed p
  | [], _, hp => by simp [Join.wordsOfAll] at hp
  | ⟨joinType, right, condition⟩ :: js, p, hp => by
    simp only [Join.wordsOfAll, List.mem_append, List.mem_cons, List.not_mem_nil, or_false] at hp
    rcases hp with ((hp | rfl | rfl) | hp) | hp
    · exact sealed_of_mem_joinTypeWords hp
    · simp [Keyword.clauses]
    · exact TableRef.sealed_tokens tableSpace right
    · exact JoinCondition.sealed_of_mem_words _ condition p hp
    · exact Join.sealed_of_mem_wordsOfAll tableSpace js p hp

theorem FromClause.sealed_of_mem_words (tableSpace : Option String) :
    ∀ f : FromClause, ∀ p ∈ f.words d tableSpace, Sealed p
  | ⟨none, joins⟩ => List.forall_mem_cons.mpr
      ⟨sealed_nil, Join.sealed_of_mem_wordsOfAll tableSpace joins⟩
  | ⟨some base, joins⟩ => List.forall_mem_cons.mpr
      ⟨TableRef.sealed_tokens tableSpace base, Join.sealed_of_mem_wordsOfAll tableSpace joins⟩

theorem SelectItem.sealed_of_mem_tokensOfAll :
    ∀ is : List SelectItem, ∀ p ∈ SelectItem.tokensOfAll d is, Sealed p
  | [], _, hp => by simp [SelectItem.tokensOfAll] at hp
  | ⟨e, aliasName⟩ :: is, p, hp => by
    rcases List.mem_cons.mp hp with rfl | hp
    · exact sealed_renamed (Expr.sealed_tokens e)
    · exact SelectItem.sealed_of_mem_tokensOfAll is p hp

/-- The clauses of the tokens of a query are those of the query, and what limits its rows. -/
theorem Select.outline_tokens :
    ∀ q : Select, ∃ ls, ls.Sublist Keyword.limits ∧ Outline (q.tokens d) (q.clauses ++ ls)
  | ⟨items, source, filter, groupBy, groupModifier, having, orderBy, distinct, top, page,
      tableSpace⟩ => by
    obtain ⟨ls, hls, hlimits⟩ := outline_limitingWords d top page
    exact ⟨ls, hls, Select.outline_of_sealed d _ (SelectItem.sealed_of_mem_tokensOfAll items)
      (FromClause.sealed_of_mem_words tableSpace source) (Condition.sealed_tokens filter)
      (Condition.sealed_tokens having) hlimits⟩

end

/-- A query that ends in no limit shows its own clauses. -/
theorem Select.outline_clauses {q : Select} (h : limitingWords d q.top q.page = []) :
    Outline (q.tokens d) q.clauses := by
  have hlimits : Outline (words (limitingWords d q.top q.page)) [] := by
    rw [h]
    exact .nil
  rw [← List.append_nil q.clauses]
  exact q.outline_of_sealed d (SelectItem.sealed_of_mem_tokensOfAll d q.items)
    (FromClause.sealed_of_mem_words d q.tableSpace q.source) (Condition.sealed_tokens d q.filter)
    (Condition.sealed_tokens d q.having) hlimits

/-! ## Statements -/

theorem sealed_valueTokens (e : Expr) : Sealed (valueTokens d e) :=
  Expr.sealed_tokens d (e.forDialect d)

theorem outline_filterWords (c : Condition) :
    Outline (words (filterWords d c)) (if c.isEmpty then [] else [.WHERE]) :=
  outline_phrase (by decide) c.isEmpty (Condition.sealed_tokens d (c.forDialect d))

theorem UnionMember.outline_tokens (m : UnionMember) : ∃ ks, Outline (m.tokens d) ks := by
  obtain ⟨ls, -, h⟩ := Select.outline_tokens d (m.query.forDialect d)
  unfold UnionMember.tokens
  split
  · exact ⟨_, h.parens⟩
  · exact ⟨_, h⟩

theorem outline_unionWords (ms : List UnionMember) :
    ∃ ks, Outline (words (ms.flatMap (UnionMember.words d))) ks := by
  induction ms with
  | nil => exact ⟨_, .nil⟩
  | cons m ms ih =>
    obtain ⟨ks, hks⟩ := ih
    obtain ⟨ls, hls⟩ := m.outline_tokens d
    have hunion : Sealed (words ([[keyword .UNION]] ++ wordIf (m.modifier = .all) .ALL)) :=
      sealed_words (List.forall_mem_append.mpr
        ⟨by simp [Keyword.clauses], fun _ => sealed_of_mem_wordIf (by decide)⟩)
    have hmember : Outline (words [m.tokens d]) ls := by rwa [words_singleton]
    exact ⟨_, (hunion.words_append hmember).words_append hks⟩

theorem Union.outline_tokens (u : Union) : ∃ ks, Outline (u.tokens d) ks := by
  unfold Union.tokens
  split
  · exact ⟨_, .nil⟩
  · rename_i m ms _
    obtain ⟨ks, hks⟩ := outline_unionWords d ms
    obtain ⟨ls, hls⟩ := m.outline_tokens d
    have hfirst : Outline (words [m.tokens d]) ls := by rwa [words_singleton]
    exact ⟨_, hfirst.words_append hks⟩

theorem sealed_rowTokens (values : List Expr) : Sealed (rowTokens d values) :=
  sealed_parens (sealed_commaList (by simp [sealed_valueTokens]))

theorem sealed_of_mem_insertWords {table : String} {namespaceName : Option String}
    {fields : List String} : ∀ p ∈ insertWords table namespaceName fields, Sealed p := by
  have hfields : Sealed (fieldTokens fields) := sealed_parens (sealed_commaList (by simp))
  simp [insertWords, Keyword.clauses, hfields]

/-- A row of values is selected by a query of its own. -/
theorem outline_selectRowWords (values : List Expr) :
    Outline (words (selectRowWords d values)) [.SELECT, .FROM] := by
  have hvalues : Sealed (commaList (values.map (valueTokens d))) := by simp [sealed_valueTokens]
  have hselect : Outline (words [[keyword .SELECT], commaList (values.map (valueTokens d))])
      [.SELECT] := outline_clause (by decide) (by simpa using hvalues)
  have hfrom : Outline (words [[keyword .FROM], [keyword .DUAL]]) [.FROM] :=
    outline_clause (by decide) (by simp [Keyword.clauses])
  exact hselect.words_append hfrom

theorem outline_unionRowWords (rows : List (List Expr)) :
    ∃ ks, Outline (words (unionRowWords d rows)) ks := by
  induction rows with
  | nil => exact ⟨_, .nil⟩
  | cons row rows ih =>
    obtain ⟨ks, hks⟩ := ih
    have hunion : Sealed (words [[keyword .UNION], [keyword .ALL]]) :=
      sealed_words (by simp [Keyword.clauses])
    exact ⟨_, (hunion.words_append (outline_selectRowWords d row)).words_append hks⟩

theorem outline_rowsWords (rows : List (List Expr)) :
    ∃ ks, Outline (words (rowsWords d rows)) ks := by
  cases rows with
  | nil => exact ⟨_, .nil⟩
  | cons row rows =>
    rw [rowsWords]
    split
    · have hrows : Sealed (commaList ((row :: rows).map (rowTokens d))) :=
        sealed_commaList (by simp [sealed_rowTokens])
      have hkeyword : Sealed [keyword .VALUES] := by simp [Keyword.clauses]
      exact ⟨_, sealed_words (List.forall_mem_cons.mpr
        ⟨hkeyword, List.forall_mem_singleton.mpr hrows⟩)⟩
    · obtain ⟨ks, hks⟩ := outline_unionRowWords d rows
      exact ⟨_, (outline_selectRowWords d row).words_append hks⟩

/-- An update shows no clause in front of its condition. -/
theorem Update.sealed_front (u : Update) :
    Sealed (words [[keyword .UPDATE], [qualified u.namespaceName u.table], [keyword .SET],
      commaList (u.assignments.map (Assignment.tokens d))]) := by
  have hassignments : Sealed (commaList (u.assignments.map (Assignment.tokens d))) := by
    refine sealed_commaList (List.forall_mem_map.mpr fun a _ => ?_)
    exact sealed_words (by simp [sealed_valueTokens])
  exact sealed_words (by simp [Keyword.clauses, hassignments])

/-- A delete shows its source in front of its condition. -/
theorem Delete.outline_front (x : Delete) :
    Outline (words [[keyword .DELETE], [keyword .FROM], [qualified x.namespaceName x.table]])
      [.FROM] := by
  have hdelete : Sealed (words [[keyword .DELETE]]) := sealed_words (by simp [Keyword.clauses])
  have hfrom : Outline (words [[keyword .FROM], [qualified x.namespaceName x.table]]) [.FROM] :=
    outline_clause (by decide) (by simp)
  exact hdelete.words_append hfrom

/-- The parentheses in the tokens of a statement pair up. -/
theorem Statement.outline_tokens (s : Statement) : ∃ ks, Outline (s.tokens d) ks := by
  cases s with
  | select q =>
    obtain ⟨ls, -, h⟩ := Select.outline_tokens d (q.forDialect d)
    exact ⟨_, h⟩
  | union u => exact u.outline_tokens d
  | insert i =>
    have hvalues : Sealed (rowTokens d (i.assignments.map Assignment.value)) :=
      sealed_rowTokens d _
    exact ⟨_, sealed_words (List.forall_mem_append.mpr
      ⟨sealed_of_mem_insertWords, by simp [Keyword.clauses, hvalues]⟩)⟩
  | bulkInsert b =>
    rw [Statement.tokens]
    unfold BulkInsert.tokens
    split
    · exact ⟨_, .nil⟩
    · obtain ⟨ks, hks⟩ := outline_rowsWords d _
      exact ⟨_, (sealed_words sealed_of_mem_insertWords).words_append hks⟩
  | update u =>
    exact ⟨_, (u.sealed_front d).words_append (outline_filterWords d u.filter)⟩
  | delete x =>
    exact ⟨_, x.outline_front.words_append (outline_filterWords d x.filter)⟩

/-! ## Valid queries -/

namespace Select

theorem clauses_append_sublist (q : Select) {ls : List Keyword} (h : ls.Sublist Keyword.limits) :
    (q.clauses ++ ls).Sublist Keyword.clauses := by
  have hif : ∀ (b : Bool) (k : Keyword), (if b then [] else [k]).Sublist [k] := by
    intro b k
    cases b
    · exact List.Sublist.refl _
    · exact List.nil_sublist _
  have hclauses : q.clauses.Sublist [.SELECT, .FROM, .WHERE, .GROUP_BY, .HAVING, .ORDER_BY] :=
    (((((List.Sublist.refl [Keyword.SELECT]).append (hif _ .FROM)).append (hif _ .WHERE)).append
      (hif _ .GROUP_BY)).append (hif _ .HAVING)).append (hif _ .ORDER_BY)
  exact hclauses.append h

theorem mem_clauses_append_iff (q : Select) {ls : List Keyword} (h : ls.Sublist Keyword.limits) :
    (Keyword.WHERE ∈ q.clauses ++ ls ↔ q.filter.HasPredicate) ∧
      (Keyword.HAVING ∈ q.clauses ++ ls ↔ q.having.HasPredicate) := by
  have hwhere : Keyword.WHERE ∉ ls := fun hmem => absurd (h.subset hmem) (by decide)
  have hhaving : Keyword.HAVING ∉ ls := fun hmem => absurd (h.subset hmem) (by decide)
  simp [clauses, hwhere, hhaving, ← Condition.isEmpty_eq_false_iff]

end Select

theorem Condition.hasPredicate_forDialect (c : Condition) :
    (c.forDialect d).HasPredicate ↔ c.HasPredicate := by
  rw [← Condition.isEmpty_eq_false_iff, ← Condition.isEmpty_eq_false_iff,
    Condition.isEmpty_forDialect]

theorem firstObstacle_map_eq_ok_iff {es : List Error} {ts us : List Token} :
    ((firstObstacle es).map fun _ => us) = .ok ts ↔ es = [] ∧ us = ts := by
  cases es <;> simp [firstObstacle, Except.map]

theorem Statement.tokens_eq_of_render {s : Statement} {ts : List Token} (h : s.render d = .ok ts) :
    s.tokens d = ts :=
  (firstObstacle_map_eq_ok_iff.mp h).2

/-- In the tokens of a statement the parentheses pair up. At depth 0 the tokens of a valid query
have the clauses of a query, each at most once and in their order, and its conditions are there
exactly if the query that is run for its page has a predicate in them, at any depth. -/
theorem Statement.balanced_and_topClauses_of_render :
    (∀ s ts, Statement.render d s = .ok ts → Balanced ts) ∧
    ∀ q ts, (Statement.select q).validate = .ok () → (Statement.select q).render d = .ok ts →
      (topClauses ts).Sublist Keyword.clauses ∧
      ∃ r, q.paged d = .ok r ∧ (Statement.select r).render d = .ok ts ∧
        (.WHERE ∈ topClauses ts ↔ r.filter.HasPredicate) ∧
        (.HAVING ∈ topClauses ts ↔ r.having.HasPredicate) := by
  constructor
  · intro s ts h
    obtain ⟨ks, hks⟩ := s.outline_tokens d
    rw [← tokens_eq_of_render d h]
    exact hks.balanced
  · intro q ts hvalid h
    rw [Statement.validate_eq_ok_iff] at hvalid
    obtain ⟨r, hr, hsame, hpage⟩ := Select.exists_paged_and_forDialect_eq d hvalid
    obtain ⟨ls, hls, hts⟩ := Select.outline_tokens d (q.forDialect d)
    have htokens : (q.forDialect d).tokens d = ts := tokens_eq_of_render d h
    have hrender : (Statement.select r).render d = .ok ts := by
      rw [← h]
      simp only [Statement.render, Statement.obstacles, Statement.tokens, hsame]
    obtain ⟨hwhere, hhaving⟩ := Select.mem_clauses_append_iff (q.forDialect d) hls
    obtain ⟨hfilter, hhaving'⟩ := Select.conditions_forDialect d hpage
    rw [hsame] at hfilter hhaving'
    rw [← htokens, hts.topClauses_eq]
    rw [hfilter, Condition.hasPredicate_forDialect] at hwhere
    rw [hhaving', Condition.hasPredicate_forDialect] at hhaving
    refine ⟨Select.clauses_append_sublist _ hls, r, hr, ?_, hwhere, hhaving⟩
    rw [hrender, htokens]

/-- A page inside a query keeps its order and its limits to itself. -/
theorem Statement.topClauses_nested_page :
    ∃ ts, (select { Select.empty with source := .ofQuery .secondPage "page" }).render .postgres =
        .ok ts ∧
      topClauses ts = [.SELECT, .FROM] ∧ Balanced ts ∧ (topClauses ts).Sublist Keyword.clauses := by
  let outer : Select := { Select.empty with source := .ofQuery .secondPage "page" }
  have hvalid : (select outer).validate = .ok () := rfl
  have hrender : (select outer).render .postgres = .ok ((select outer).tokens .postgres) := rfl
  obtain ⟨hbalanced, hclauses⟩ := balanced_and_topClauses_of_render .postgres
  exact ⟨_, hrender, by decide, hbalanced _ _ hrender, (hclauses _ _ hvalid hrender).1⟩

end SqlTree
