import SqlTree.Proofs.Paging.Strings
import SqlTree.Proofs.Rendering.Shape
import SqlTree.Proofs.Rendering.StringObstacles
import SqlTree.Rendering

/-!
# String data does not change the shape of SQL

Mapping the strings of a statement changes neither what keeps a dialect from writing it nor the
shape of what is written: the two lists of tokens differ in string literals only.

Results:
* `Select.map_shape_tokens` and its companions: the shape of the tokens stays.
* `Statement.render_mapStrings`: a statement and the statement with its strings mapped fail with
  the same error, or have tokens that agree except in string literals.
-/

namespace SqlTree

variable (d : Dialect) (f : String → String)

/-! ## Trees -/

mutual

theorem Expr.map_shape_tokens :
    ∀ e : Expr, ((e.mapStrings f).tokens d).map Token.shape = (e.tokens d).map Token.shape
  | .field _ _ | .parameter _ | .raw _ | .star _ | .rowNumber _ | .null => rfl
  | .constant c => by simp [Expr.mapStrings, Expr.tokens]
  | .function name args => by
    rw [Expr.mapStrings, Expr.tokens, Expr.tokens, Token.map_shape_call, Token.map_shape_call,
      Expr.map_shape_tokensOfAll args]
  | .aggregate h none distinct => rfl
  | .aggregate h (some arg) distinct => by
    simp [Expr.mapStrings, Expr.tokens, Expr.map_shape_tokens arg]
  | .case arms none => by
    simp [Expr.mapStrings, Expr.tokens, -CaseArm.mapStringsOfAll_eq_map,
      CaseArm.map_shape_wordsOfAll arms]
  | .case arms (some e) => by
    simp [Expr.mapStrings, Expr.tokens, -CaseArm.mapStringsOfAll_eq_map,
      CaseArm.map_shape_wordsOfAll arms, Expr.map_shape_tokens e]
  | .arithmetic left op right => by
    simp [Expr.mapStrings, Expr.tokens, Expr.map_shape_tokens left, Expr.map_shape_tokens right]
  | .dateDiff unit start finish => by
    rw [Expr.mapStrings, Expr.tokens, Expr.tokens]
    split
    · exact Formula.map_shape_tokens (Expr.map_shape_tokens start) (Expr.map_shape_tokens finish) _
    · rfl
  | .ifNull value fallback => by
    simp [Expr.mapStrings, Expr.tokens, Expr.map_shape_tokens value,
      Expr.map_shape_tokens fallback]
  | .subquery q => by simp [Expr.mapStrings, Expr.tokens, Select.map_shape_tokens q]

theorem Expr.map_shape_tokensOfAll : ∀ es : List Expr,
    (Expr.tokensOfAll d (Expr.mapStringsOfAll f es)).map (List.map Token.shape) =
      (Expr.tokensOfAll d es).map (List.map Token.shape)
  | [] => rfl
  | e :: es => by
    rw [Expr.mapStringsOfAll, Expr.tokensOfAll, Expr.tokensOfAll, List.map_cons, List.map_cons,
      Expr.map_shape_tokens e, Expr.map_shape_tokensOfAll es]

theorem CaseArm.map_shape_wordsOfAll : ∀ arms : List CaseArm,
    (CaseArm.wordsOfAll d (CaseArm.mapStringsOfAll f arms)).map (List.map Token.shape) =
      (CaseArm.wordsOfAll d arms).map (List.map Token.shape)
  | [] => rfl
  | ⟨condition, result⟩ :: arms => by
    simp only [CaseArm.mapStringsOfAll, CaseArm.wordsOfAll, List.map_append, List.map_cons,
      Condition.map_shape_tokens condition, Expr.map_shape_tokens result,
      CaseArm.map_shape_wordsOfAll arms]

theorem Subquery.map_shape_tokens :
    ∀ s : Subquery, ((s.mapStrings f).tokens d).map Token.shape = (s.tokens d).map Token.shape
  | .query q => Select.map_shape_tokens q
  | .text _ => rfl

theorem Predicate.map_shape_tokens :
    ∀ p : Predicate, ((p.mapStrings f).tokens d).map Token.shape = (p.tokens d).map Token.shape
  | .compare left op right => by
    cases op <;>
      simp [Predicate.mapStrings, Predicate.tokens, Expr.map_shape_tokens left,
        Expr.map_shape_tokens right]
  | .between e low high negated => by
    simp [Predicate.mapStrings, Predicate.tokens, Expr.map_shape_tokens e,
      Expr.map_shape_tokens low, Expr.map_shape_tokens high]
  | .inList e values negated => Token.map_shape_inList (Expr.map_shape_tokens e) f values negated
  | .isNull e negated => by
    simp [Predicate.mapStrings, Predicate.tokens, Expr.map_shape_tokens e]
  | .inSubquery e s negated => by
    simp [Predicate.mapStrings, Predicate.tokens, Expr.map_shape_tokens e,
      Subquery.map_shape_tokens s]
  | .exists s negated => by
    simp [Predicate.mapStrings, Predicate.tokens, Subquery.map_shape_tokens s]
  | .raw _ => rfl

theorem Predicate.map_shape_tokensOfAll : ∀ ps : List Predicate,
    (Predicate.tokensOfAll d (Predicate.mapStringsOfAll f ps)).map (List.map Token.shape) =
      (Predicate.tokensOfAll d ps).map (List.map Token.shape)
  | [] => rfl
  | p :: ps => by
    rw [Predicate.mapStringsOfAll, Predicate.tokensOfAll, Predicate.tokensOfAll, List.map_cons,
      List.map_cons, Predicate.map_shape_tokens p, Predicate.map_shape_tokensOfAll ps]

theorem Condition.map_shape_tokens :
    ∀ c : Condition, ((c.mapStrings f).tokens d).map Token.shape = (c.tokens d).map Token.shape
  | ⟨connective, predicates, groups⟩ => by
    rw [Condition.mapStrings, Condition.tokens, Condition.tokens, Token.map_shape_intercalate,
      Token.map_shape_intercalate, List.map_append, List.map_append,
      Predicate.map_shape_tokensOfAll predicates, Condition.map_shape_tokensOfGroups groups]

theorem Condition.map_shape_tokensOfGroups : ∀ gs : List Condition,
    (Condition.tokensOfGroups d (Condition.mapStringsOfAll f gs)).map (List.map Token.shape) =
      (Condition.tokensOfGroups d gs).map (List.map Token.shape)
  | [] => rfl
  | g :: gs => by
    rw [Condition.mapStringsOfAll, Condition.tokensOfGroups, Condition.tokensOfGroups,
      Condition.isEmpty_mapStrings]
    split
    · exact Condition.map_shape_tokensOfGroups gs
    · rw [List.map_cons, List.map_cons, Token.map_shape_parens, Token.map_shape_parens,
        Condition.map_shape_tokens g, Condition.map_shape_tokensOfGroups gs]

theorem Source.map_shape_tokens : ∀ (tableSpace : Option String) (s : Source),
    ((s.mapStrings f).tokens d tableSpace).map Token.shape =
      (s.tokens d tableSpace).map Token.shape
  | _, .query q => by simp [Source.mapStrings, Source.tokens, Select.map_shape_tokens q]
  | _, .table _ _ | _, .queryText _ | _, .aliasRef _ => rfl

theorem TableRef.map_shape_tokens : ∀ (tableSpace : Option String) (t : TableRef),
    ((t.mapStrings f).tokens d tableSpace).map Token.shape =
      (t.tokens d tableSpace).map Token.shape
  | tableSpace, ⟨source, aliasName⟩ => by
    rw [TableRef.mapStrings, TableRef.tokens, TableRef.tokens, Token.map_shape_renamed,
      Token.map_shape_renamed, Source.map_shape_tokens tableSpace source]

theorem JoinCondition.map_shape_words : ∀ (right : String) (c : JoinCondition),
    ((c.mapStrings f).words d right).map (List.map Token.shape) =
      (c.words d right).map (List.map Token.shape)
  | _, .condition c => by
    simp [JoinCondition.mapStrings, JoinCondition.words, Condition.map_shape_tokens c]
  | _, .fields _ _ | _, .none => rfl

theorem Join.map_shape_wordsOfAll : ∀ (tableSpace : Option String) (js : List Join),
    (Join.wordsOfAll d tableSpace (Join.mapStringsOfAll f js)).map (List.map Token.shape) =
      (Join.wordsOfAll d tableSpace js).map (List.map Token.shape)
  | _, [] => rfl
  | tableSpace, ⟨joinType, right, condition⟩ :: js => by
    simp only [Join.mapStringsOfAll, Join.wordsOfAll, List.map_append, List.map_cons,
      TableRef.refName_mapStrings, TableRef.map_shape_tokens tableSpace right,
      JoinCondition.map_shape_words _ condition, Join.map_shape_wordsOfAll tableSpace js]

theorem FromClause.map_shape_words : ∀ (tableSpace : Option String) (s : FromClause),
    ((s.mapStrings f).words d tableSpace).map (List.map Token.shape) =
      (s.words d tableSpace).map (List.map Token.shape)
  | tableSpace, ⟨none, joins⟩ => by
    simp only [FromClause.mapStrings, FromClause.words, List.map_cons,
      Join.map_shape_wordsOfAll tableSpace joins]
  | tableSpace, ⟨some base, joins⟩ => by
    simp only [FromClause.mapStrings, FromClause.words, List.map_cons,
      TableRef.map_shape_tokens tableSpace base, Join.map_shape_wordsOfAll tableSpace joins]

theorem SelectItem.map_shape_tokensOfAll : ∀ is : List SelectItem,
    (SelectItem.tokensOfAll d (SelectItem.mapStringsOfAll f is)).map (List.map Token.shape) =
      (SelectItem.tokensOfAll d is).map (List.map Token.shape)
  | [] => rfl
  | ⟨e, aliasName⟩ :: is => by
    rw [SelectItem.mapStringsOfAll, SelectItem.tokensOfAll, SelectItem.tokensOfAll, List.map_cons,
      List.map_cons, Token.map_shape_renamed, Token.map_shape_renamed, Expr.map_shape_tokens e,
      SelectItem.map_shape_tokensOfAll is]

/-- The shape of the tokens of a query stays. -/
theorem Select.map_shape_tokens :
    ∀ q : Select, ((q.mapStrings f).tokens d).map Token.shape = (q.tokens d).map Token.shape
  | ⟨items, source, filter, groupBy, groupModifier, having, orderBy, distinct, top, page,
      tableSpace⟩ => by
    have hitems : (if (SelectItem.mapStringsOfAll f items).isEmpty then [Token.symbol .star]
          else Token.commaList (SelectItem.tokensOfAll d (SelectItem.mapStringsOfAll f items))).map
          Token.shape =
        (if items.isEmpty then [Token.symbol .star]
          else Token.commaList (SelectItem.tokensOfAll d items)).map Token.shape := by
      have hempty : (SelectItem.mapStringsOfAll f items).isEmpty = items.isEmpty := by
        rw [SelectItem.mapStringsOfAll_eq_map, List.isEmpty_map]
      rw [hempty]
      split
      · rfl
      · rw [Token.map_shape_commaList, Token.map_shape_commaList,
          SelectItem.map_shape_tokensOfAll items]
    have hsource : (if (source.mapStrings f).isEmpty then []
          else [Token.keyword .FROM] :: (source.mapStrings f).words d tableSpace).map
          (List.map Token.shape) =
        (if source.isEmpty then [] else [Token.keyword .FROM] :: source.words d tableSpace).map
          (List.map Token.shape) := by
      rw [FromClause.isEmpty_mapStrings]
      split
      · rfl
      · simp only [List.map_cons, FromClause.map_shape_words tableSpace source]
    simp only [Select.mapStrings, Select.tokens, Token.map_shape_words, List.map_append,
      List.map_cons, List.map_nil, hitems, hsource, Token.map_shape_phrase,
      Condition.isEmpty_mapStrings, Condition.map_shape_tokens filter,
      Condition.map_shape_tokens having]

end

/-! ## Trees as a dialect writes them -/

theorem Expr.forDialect_mapStrings (e : Expr) :
    (e.mapStrings f).forDialect d = (e.forDialect d).mapStrings f := by
  unfold Expr.forDialect
  split
  · exact Expr.expandPages_mapStrings f e
  · rfl

theorem Condition.forDialect_mapStrings (c : Condition) :
    (c.mapStrings f).forDialect d = (c.forDialect d).mapStrings f := by
  unfold Condition.forDialect
  split
  · exact Condition.expandPages_mapStrings f c
  · rfl

theorem Select.forDialect_mapStrings (q : Select) :
    (q.mapStrings f).forDialect d = (q.forDialect d).mapStrings f := by
  unfold Select.forDialect
  split
  · exact Select.expandPages_mapStrings f q
  · rfl

@[simp] theorem valueObstacles_mapStrings (e : Expr) :
    valueObstacles d (e.mapStrings f) = valueObstacles d e := by
  rw [valueObstacles, valueObstacles, Expr.forDialect_mapStrings, Expr.obstacles_mapStrings]

@[simp] theorem filterObstacles_mapStrings (c : Condition) :
    filterObstacles d (c.mapStrings f) = filterObstacles d c := by
  rw [filterObstacles, filterObstacles, Condition.forDialect_mapStrings,
    Condition.obstacles_mapStrings]

@[simp] theorem map_shape_valueTokens (e : Expr) :
    (valueTokens d (e.mapStrings f)).map Token.shape = (valueTokens d e).map Token.shape := by
  rw [valueTokens, valueTokens, Expr.forDialect_mapStrings, Expr.map_shape_tokens]

@[simp] theorem map_shape_filterWords (c : Condition) :
    (filterWords d (c.mapStrings f)).map (List.map Token.shape) =
      (filterWords d c).map (List.map Token.shape) := by
  rw [filterWords, filterWords, Token.map_shape_phrase, Token.map_shape_phrase,
    Condition.isEmpty_mapStrings, Condition.forDialect_mapStrings, Condition.map_shape_tokens]

/-! ## Parts of statements -/

@[simp] theorem Assignment.obstacles_mapStrings (a : Assignment) :
    (a.mapStrings f).obstacles d = a.obstacles d :=
  valueObstacles_mapStrings d f a.value

@[simp] theorem Assignment.map_shape_tokens (a : Assignment) :
    ((a.mapStrings f).tokens d).map Token.shape = (a.tokens d).map Token.shape := by
  simp [Assignment.tokens, Assignment.mapStrings]

@[simp] theorem UnionMember.map_shape_tokens (m : UnionMember) :
    ((m.mapStrings f).tokens d).map Token.shape = (m.tokens d).map Token.shape := by
  have htop : (m.query.mapStrings f).top = m.query.top := by cases m.query; rfl
  rw [UnionMember.tokens, UnionMember.tokens, UnionMember.mapStrings, htop]
  split
  · rw [Token.map_shape_parens, Token.map_shape_parens, Select.forDialect_mapStrings,
      Select.map_shape_tokens]
  · rw [Select.forDialect_mapStrings, Select.map_shape_tokens]

@[simp] theorem UnionMember.map_shape_words (m : UnionMember) :
    ((m.mapStrings f).words d).map (List.map Token.shape) =
      (m.words d).map (List.map Token.shape) := by
  simp [UnionMember.words]
  rfl

theorem Insert.fields_mapStrings (i : Insert) :
    (i.mapStrings f).assignments.map Assignment.field = i.assignments.map Assignment.field := by
  simp [Insert.mapStrings, Assignment.mapStrings, Function.comp_def]

theorem Insert.valueOf?_mapStrings (i : Insert) (field : String) :
    (i.mapStrings f).valueOf? field = (i.valueOf? field).map (Expr.mapStrings f) := by
  simp [Insert.mapStrings, Assignment.mapStrings, Insert.valueOf?, List.find?_map,
    Function.comp_def]

theorem Insert.valuesOf_mapStrings (i : Insert) (fields : List String) :
    (i.mapStrings f).valuesOf fields = (i.valuesOf fields).map (Expr.mapStrings f) := by
  rw [Insert.valuesOf, Insert.valuesOf, List.map_map]
  refine List.map_congr_left fun field _ => ?_
  rw [Insert.valueOf?_mapStrings, Function.comp]
  cases i.valueOf? field <;> rfl

@[simp] theorem map_shape_rowTokens (values : List Expr) :
    (rowTokens d (values.map (Expr.mapStrings f))).map Token.shape =
      (rowTokens d values).map Token.shape := by
  simp [rowTokens, Function.comp_def]

@[simp] theorem map_shape_selectRowWords (values : List Expr) :
    (selectRowWords d (values.map (Expr.mapStrings f))).map (List.map Token.shape) =
      (selectRowWords d values).map (List.map Token.shape) := by
  simp [selectRowWords, Function.comp_def]

theorem Insert.map_shape_tokens (i : Insert) :
    ((i.mapStrings f).tokens d).map Token.shape = (i.tokens d).map Token.shape := by
  have hvalues : (i.mapStrings f).assignments.map Assignment.value =
      (i.assignments.map Assignment.value).map (Expr.mapStrings f) := by
    simp [Insert.mapStrings, Assignment.mapStrings, Function.comp_def]
  rw [Insert.tokens, Insert.tokens, Insert.fields_mapStrings, hvalues]
  simp only [Token.map_shape_words, List.map_append, List.map_cons, map_shape_rowTokens]
  rfl

theorem map_shape_rowsWords (rows : List (List Expr)) :
    (rowsWords d (rows.map (List.map (Expr.mapStrings f)))).map (List.map Token.shape) =
      (rowsWords d rows).map (List.map Token.shape) := by
  cases rows with
  | nil => rfl
  | cons row rows =>
    rw [List.map_cons, rowsWords, rowsWords]
    split
    · simp [Function.comp_def]
    · simp [unionRowWords, List.flatMap_map, List.map_flatMap]

/-! ## Statements -/

theorem BulkInsert.obstacles_mapStrings (rows : List Insert) :
    (BulkInsert.mk (rows.map (Insert.mapStrings f))).obstacles d =
      (BulkInsert.mk rows).obstacles d := by
  cases rows with
  | nil => rfl
  | cons first rest =>
    simp [BulkInsert.obstacles, Insert.fields_mapStrings, Insert.valuesOf_mapStrings,
      List.flatMap_map]

theorem BulkInsert.map_shape_tokens (rows : List Insert) :
    ((BulkInsert.mk (rows.map (Insert.mapStrings f))).tokens d).map Token.shape =
      ((BulkInsert.mk rows).tokens d).map Token.shape := by
  cases rows with
  | nil => rfl
  | cons first rest =>
    have hrows := map_shape_rowsWords d f
      ((first :: rest).map (·.valuesOf (first.assignments.map Assignment.field)))
    simp only [List.map_cons, List.map_map, Function.comp_def] at hrows
    simp only [BulkInsert.tokens, List.map_cons, Insert.fields_mapStrings, List.map_map,
      Function.comp_def, Insert.valuesOf_mapStrings, Token.map_shape_words, List.map_append, hrows]
    rfl

/-- The obstacles of a statement stay. -/
theorem Statement.obstacles_mapStrings (s : Statement) :
    (s.mapStrings f).obstacles d = s.obstacles d := by
  cases s with
  | select q =>
    rw [Statement.mapStrings, Statement.obstacles, Select.forDialect_mapStrings,
      Select.obstacles_mapStrings, Statement.obstacles]
  | union u =>
    simp [Statement.mapStrings, UnionMember.mapStrings, Statement.obstacles, List.flatMap_map,
      Select.forDialect_mapStrings, Select.obstacles_mapStrings]
  | insert i =>
    simp [Statement.mapStrings, Insert.mapStrings, Statement.obstacles, List.flatMap_map]
  | bulkInsert b => exact BulkInsert.obstacles_mapStrings d f b.rows
  | update u => simp [Statement.mapStrings, Statement.obstacles, List.flatMap_map]
  | delete x => exact filterObstacles_mapStrings d f x.filter

/-- The shape of the tokens of a statement stays. -/
theorem Statement.map_shape_tokens (s : Statement) :
    ((s.mapStrings f).tokens d).map Token.shape = (s.tokens d).map Token.shape := by
  cases s with
  | select q =>
    rw [Statement.mapStrings, Statement.tokens, Select.forDialect_mapStrings,
      Select.map_shape_tokens, Statement.tokens]
  | union u =>
    obtain ⟨members⟩ := u
    cases members with
    | nil => rfl
    | cons m ms =>
      simp [Statement.mapStrings, Statement.tokens, Union.tokens, List.flatMap_map,
        List.map_flatMap]
  | insert i => exact Insert.map_shape_tokens d f i
  | bulkInsert b => exact BulkInsert.map_shape_tokens d f b.rows
  | update u =>
    simp [Statement.mapStrings, Statement.tokens, Update.tokens, Function.comp_def]
  | delete x => simp [Statement.mapStrings, Statement.tokens, Delete.tokens]

/-- Tokens with one shape agree at every position, except where both are string literals. -/
theorem Token.getElem?_of_map_shape_eq {ts us : List Token}
    (h : us.map Token.shape = ts.map Token.shape) (i : Nat) :
    ts[i]? = us[i]? ∨ ∃ a b, ts[i]? = some (.string a) ∧ us[i]? = some (.string b) := by
  have hi : us[i]?.map Token.shape = ts[i]?.map Token.shape := by
    rw [← List.getElem?_map, h, List.getElem?_map]
  cases ht : ts[i]? with
  | none =>
    rw [ht] at hi
    exact .inl (Option.map_eq_none_iff.mp hi).symm
  | some t =>
    cases hu : us[i]? with
    | none => simp [ht, hu] at hi
    | some u =>
      simp only [ht, hu, Option.map_some, Option.some.injEq] at hi
      rcases Token.eq_or_string_of_shape_eq hi.symm with rfl | ⟨a, b, rfl, rfl⟩
      · exact .inl rfl
      · exact .inr ⟨a, b, rfl, rfl⟩

/-- A statement and the statement with its strings mapped fail with the same error, or have lists
of tokens of one length that agree at every position, except where both are string literals. -/
theorem Statement.render_mapStrings (s : Statement) :
    (∃ e, s.render d = .error e ∧ (s.mapStrings f).render d = .error e) ∨
    ∃ ts us, s.render d = .ok ts ∧ (s.mapStrings f).render d = .ok us ∧ ts.length = us.length ∧
      ∀ i : Nat, ts[i]? = us[i]? ∨
        ∃ a b, ts[i]? = some (.string a) ∧ us[i]? = some (.string b) := by
  unfold Statement.render
  rw [Statement.obstacles_mapStrings]
  cases s.obstacles d with
  | cons e es => exact .inl ⟨e, rfl, rfl⟩
  | nil =>
    have hshape := Statement.map_shape_tokens d f s
    have hlength := congrArg List.length hshape
    rw [List.length_map, List.length_map] at hlength
    exact .inr ⟨_, _, rfl, rfl, hlength.symm, Token.getElem?_of_map_shape_eq hshape⟩

end SqlTree
