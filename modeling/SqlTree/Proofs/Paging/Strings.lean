import SqlTree.Proofs.Paging.MappedColumns
import SqlTree.Proofs.Tree.Strings

/-!
# Pages of queries with other strings

The blocks of a page take their names from columns and sort keys, never from strings. So mapping
strings and expanding pages do not interfere.

Results:
* `Select.mapStrings_numberedBlocks`: the blocks of a query with its strings mapped are its blocks
  with their strings mapped.
* `Select.expandPages_mapStrings`: strings may be mapped before or after pages are expanded.
-/

namespace SqlTree

variable (f : String → String)

/-- Fields and stars have no strings. -/
theorem Expr.keepsColumns_mapStrings : KeepsColumns (Expr.mapStrings f) where
  fixes e h := by
    cases e with
    | field | star => rfl
    | _ => simp [isColumn] at h
  reflects e := by
    cases e with
    | aggregate h arg distinct => cases arg <;> rfl
    | case arms otherwise => cases otherwise <;> rfl
    | _ => rfl

namespace Select

/-! ## Blocks -/

theorem mapStrings_outerBlock (middle : Select) (shown : List SelectItem)
    (names : List (String × SortDirection)) (first last : UInt64) :
    (outerBlock middle shown names first last).mapStrings f =
      outerBlock (middle.mapStrings f) shown names first last := by
  have hitems : (outerItems shown).map (SelectItem.mapStrings f) = outerItems shown :=
    (Expr.keepsColumns_mapStrings f).map_outerItems shown
  rw [outerBlock, empty, mapStrings, SelectItem.mapStringsOfAll_eq_map, hitems]
  rfl

theorem mapStrings_middleBlock (inner : Select) (names : List (String × SortDirection)) :
    (middleBlock inner names).mapStrings f = middleBlock (inner.mapStrings f) names := rfl

theorem mapStrings_innerBlock (q : Select) (items : List SelectItem) :
    (q.innerBlock items).mapStrings f =
      (q.mapStrings f).innerBlock (items.map (SelectItem.mapStrings f)) := by
  cases q
  rw [innerBlock, mapStrings, SelectItem.mapStringsOfAll_eq_map]
  rfl

/-- The blocks of a query with its strings mapped are its blocks with their strings mapped. -/
theorem mapStrings_numberedBlocks (q : Select) (p : Page) :
    (q.numberedBlocks p).mapStrings f = (q.mapStrings f).numberedBlocks p := by
  have hitems : (q.mapStrings f).items = q.items.map (·.mapExpr (Expr.mapStrings f)) := by
    cases q
    exact SelectItem.mapStringsOfAll_eq_map f _
  have ho : (q.mapStrings f).orderBy = q.orderBy := by cases q; rfl
  have ht : (q.mapStrings f).top = q.top := by cases q; rfl
  rw [(Expr.keepsColumns_mapStrings f).numberedBlocks_eq hitems ho ht, numberedBlocks_eq,
    mapStrings_outerBlock, mapStrings_middleBlock, mapStrings_innerBlock]
  rfl

theorem expandOwnPage_mapStrings (q : Select) :
    (q.mapStrings f).expandOwnPage = q.expandOwnPage.mapStrings f := by
  have hpage : (q.mapStrings f).page = q.page := by cases q; rfl
  have ho : (q.mapStrings f).orderBy = q.orderBy := by cases q; rfl
  rw [expandOwnPage, expandOwnPage, hpage, ho]
  split
  · rfl
  · split
    · rfl
    · rw [mapStrings_numberedBlocks]

end Select

/-! ## Trees -/

mutual

theorem Expr.expandPages_mapStrings :
    ∀ e : Expr, (e.mapStrings f).expandPages = e.expandPages.mapStrings f
  | .field _ _ | .constant _ | .parameter _ | .raw _ | .star _ | .rowNumber _ | .null => rfl
  | .function name args => by
    rw [Expr.mapStrings, Expr.expandPages, Expr.expandPagesOfAll_mapStrings args]
    rfl
  | .aggregate h none distinct => rfl
  | .aggregate h (some arg) distinct => by
    rw [Expr.mapStrings, Expr.expandPages, Expr.expandPages_mapStrings arg]
    rfl
  | .case arms none => by
    rw [Expr.mapStrings, Expr.expandPages, CaseArm.expandPagesOfAll_mapStrings arms]
    rfl
  | .case arms (some e) => by
    rw [Expr.mapStrings, Expr.expandPages, CaseArm.expandPagesOfAll_mapStrings arms,
      Expr.expandPages_mapStrings e]
    rfl
  | .arithmetic left op right | .dateDiff op left right | .ifNull left right => by
    rw [Expr.mapStrings, Expr.expandPages, Expr.expandPages_mapStrings left,
      Expr.expandPages_mapStrings right]
    rfl
  | .subquery q => by
    rw [Expr.mapStrings, Expr.expandPages, Select.expandPages_mapStrings q]
    rfl

theorem Expr.expandPagesOfAll_mapStrings :
    ∀ es : List Expr, Expr.expandPagesOfAll (Expr.mapStringsOfAll f es) =
      Expr.mapStringsOfAll f (Expr.expandPagesOfAll es)
  | [] => rfl
  | e :: es => by
    rw [Expr.mapStringsOfAll, Expr.expandPagesOfAll, Expr.expandPages_mapStrings e,
      Expr.expandPagesOfAll_mapStrings es]
    rfl

theorem CaseArm.expandPagesOfAll_mapStrings :
    ∀ arms : List CaseArm, CaseArm.expandPagesOfAll (CaseArm.mapStringsOfAll f arms) =
      CaseArm.mapStringsOfAll f (CaseArm.expandPagesOfAll arms)
  | [] => rfl
  | ⟨condition, result⟩ :: arms => by
    rw [CaseArm.mapStringsOfAll, CaseArm.expandPagesOfAll,
      Condition.expandPages_mapStrings condition, Expr.expandPages_mapStrings result,
      CaseArm.expandPagesOfAll_mapStrings arms]
    rfl

theorem Subquery.expandPages_mapStrings :
    ∀ s : Subquery, (s.mapStrings f).expandPages = s.expandPages.mapStrings f
  | .query q => by
    rw [Subquery.mapStrings, Subquery.expandPages, Select.expandPages_mapStrings q]
    rfl
  | .text sql => rfl

theorem Predicate.expandPages_mapStrings :
    ∀ p : Predicate, (p.mapStrings f).expandPages = p.expandPages.mapStrings f
  | .compare left op right => by
    rw [Predicate.mapStrings, Predicate.expandPages, Expr.expandPages_mapStrings left,
      Expr.expandPages_mapStrings right]
    rfl
  | .between e low high negated => by
    rw [Predicate.mapStrings, Predicate.expandPages, Expr.expandPages_mapStrings e,
      Expr.expandPages_mapStrings low, Expr.expandPages_mapStrings high]
    rfl
  | .inList e _ _ | .isNull e _ => by
    rw [Predicate.mapStrings, Predicate.expandPages, Expr.expandPages_mapStrings e]
    rfl
  | .inSubquery e s negated => by
    rw [Predicate.mapStrings, Predicate.expandPages, Expr.expandPages_mapStrings e,
      Subquery.expandPages_mapStrings s]
    rfl
  | .exists s negated => by
    rw [Predicate.mapStrings, Predicate.expandPages, Subquery.expandPages_mapStrings s]
    rfl
  | .raw sql => rfl

theorem Predicate.expandPagesOfAll_mapStrings :
    ∀ ps : List Predicate, Predicate.expandPagesOfAll (Predicate.mapStringsOfAll f ps) =
      Predicate.mapStringsOfAll f (Predicate.expandPagesOfAll ps)
  | [] => rfl
  | p :: ps => by
    rw [Predicate.mapStringsOfAll, Predicate.expandPagesOfAll, Predicate.expandPages_mapStrings p,
      Predicate.expandPagesOfAll_mapStrings ps]
    rfl

theorem Condition.expandPages_mapStrings :
    ∀ c : Condition, (c.mapStrings f).expandPages = c.expandPages.mapStrings f
  | ⟨connective, predicates, groups⟩ => by
    rw [Condition.mapStrings, Condition.expandPages,
      Predicate.expandPagesOfAll_mapStrings predicates,
      Condition.expandPagesOfAll_mapStrings groups]
    rfl

theorem Condition.expandPagesOfAll_mapStrings :
    ∀ gs : List Condition, Condition.expandPagesOfAll (Condition.mapStringsOfAll f gs) =
      Condition.mapStringsOfAll f (Condition.expandPagesOfAll gs)
  | [] => rfl
  | g :: gs => by
    rw [Condition.mapStringsOfAll, Condition.expandPagesOfAll, Condition.expandPages_mapStrings g,
      Condition.expandPagesOfAll_mapStrings gs]
    rfl

theorem Source.expandPages_mapStrings :
    ∀ s : Source, (s.mapStrings f).expandPages = s.expandPages.mapStrings f
  | .query q => by
    rw [Source.mapStrings, Source.expandPages, Select.expandPages_mapStrings q]
    rfl
  | .table _ _ | .queryText _ | .aliasRef _ => rfl

theorem TableRef.expandPages_mapStrings :
    ∀ t : TableRef, (t.mapStrings f).expandPages = t.expandPages.mapStrings f
  | ⟨source, aliasName⟩ => by
    rw [TableRef.mapStrings, TableRef.expandPages, Source.expandPages_mapStrings source]
    rfl

theorem JoinCondition.expandPages_mapStrings :
    ∀ c : JoinCondition, (c.mapStrings f).expandPages = c.expandPages.mapStrings f
  | .condition c => by
    rw [JoinCondition.mapStrings, JoinCondition.expandPages, Condition.expandPages_mapStrings c]
    rfl
  | .fields _ _ | .none => rfl

theorem Join.expandPagesOfAll_mapStrings :
    ∀ js : List Join, Join.expandPagesOfAll (Join.mapStringsOfAll f js) =
      Join.mapStringsOfAll f (Join.expandPagesOfAll js)
  | [] => rfl
  | ⟨joinType, right, condition⟩ :: js => by
    rw [Join.mapStringsOfAll, Join.expandPagesOfAll, TableRef.expandPages_mapStrings right,
      JoinCondition.expandPages_mapStrings condition, Join.expandPagesOfAll_mapStrings js]
    rfl

theorem FromClause.expandPages_mapStrings :
    ∀ s : FromClause, (s.mapStrings f).expandPages = s.expandPages.mapStrings f
  | ⟨none, joins⟩ => by
    rw [FromClause.mapStrings, FromClause.expandPages, Join.expandPagesOfAll_mapStrings joins]
    rfl
  | ⟨some base, joins⟩ => by
    rw [FromClause.mapStrings, FromClause.expandPages, TableRef.expandPages_mapStrings base,
      Join.expandPagesOfAll_mapStrings joins]
    rfl

theorem SelectItem.expandPagesOfAll_mapStrings :
    ∀ is : List SelectItem, SelectItem.expandPagesOfAll (SelectItem.mapStringsOfAll f is) =
      SelectItem.mapStringsOfAll f (SelectItem.expandPagesOfAll is)
  | [] => rfl
  | ⟨e, aliasName⟩ :: is => by
    rw [SelectItem.mapStringsOfAll, SelectItem.expandPagesOfAll, Expr.expandPages_mapStrings e,
      SelectItem.expandPagesOfAll_mapStrings is]
    rfl

/-- Strings may be mapped before or after pages are expanded. -/
theorem Select.expandPages_mapStrings :
    ∀ q : Select, (q.mapStrings f).expandPages = q.expandPages.mapStrings f
  | ⟨items, source, filter, groupBy, groupModifier, having, orderBy, distinct, top, page,
      tableSpace⟩ => by
    rw [Select.mapStrings, Select.expandPages, SelectItem.expandPagesOfAll_mapStrings items,
      FromClause.expandPages_mapStrings source, Condition.expandPages_mapStrings filter,
      Condition.expandPages_mapStrings having, Select.expandPages,
      ← Select.expandOwnPage_mapStrings, Select.mapStrings]

end

end SqlTree
