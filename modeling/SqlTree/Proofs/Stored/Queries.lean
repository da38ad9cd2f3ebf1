import SqlTree.Proofs.Stored.Constants
import SqlTree.Proofs.Tree.Constants
import SqlTree.Proofs.Tree.Node
import SqlTree.Stored.Query

/-!
# Reading stored queries

The stored form of a tree is read again as the tree, with its constants as they are read: defaults
that are written, names and arguments that are left out, and the alternatives without content. A
missing argument and the expression null are different in the stored form, so neither is read as the
other. A float that is not finite is stored as null, and no tree with one is read again.

* `Node.ReadsBack`: a tree that is read again from its stored form;
* `Node.IsFinite`: a tree in which all floats are finite.

Results:
* `Node.readsBack_of_children`: a tree is read again if its own constants are finite and the trees
  right below it are read again.
* `Node.readsBack`: a tree with finite floats is read again.
-/

namespace SqlTree

open Value

/-! ## Parts without expressions -/

theorem SortKey.ofValue?_toValue (k : SortKey) : SortKey.ofValue? k.toValue = some k := by
  obtain ⟨field, table, direction⟩ := k
  cases table <;> simp [SortKey.ofValue?, SortKey.toValue, fieldIfSome, SortDirection.ofName?_name]

theorem GroupKey.ofValue?_toValue (k : GroupKey) : GroupKey.ofValue? k.toValue = some k := by
  obtain ⟨field, table⟩ := k
  cases table <;> simp [GroupKey.ofValue?, GroupKey.toValue, fieldIfSome]

theorem Page.ofValue?_toValue (p : Page) : Page.ofValue? p.toValue = some p := by
  simp [Page.ofValue?, Page.toValue]

theorem fieldPairOfValue?_fieldPairToValue (p : String × String) :
    fieldPairOfValue? (fieldPairToValue p) = some p := rfl

theorem Expr.ofValue?_null : Expr.ofValue? .null = none := by
  rw [Expr.ofValue?]
  rfl

theorem TableRef.ofValue?_null : TableRef.ofValue? .null = none := by
  rw [TableRef.ofValue?]
  rfl

/-! ## Trees -/

/-- A tree is read again from its stored form, with its constants as they are stored. -/
def Node.ReadsBack : Node → Prop
  | .expr e => Expr.ofValue? e.toValue = some (e.mapConstants Constant.asStored)
  | .predicate p => Predicate.ofValue? p.toValue = some (p.mapConstants Constant.asStored)
  | .condition c => Condition.ofValue? c.toValue = some (c.mapConstants Constant.asStored)
  | .tableRef t => TableRef.ofValue? t.toValue = some (t.mapConstants Constant.asStored)
  | .fromClause f => FromClause.ofValue? f.toValue = some (f.mapConstants Constant.asStored)
  | .select q => Select.ofValue? q.toValue = some (q.mapConstants Constant.asStored)

/-- All constants in a tree are finite. -/
def Node.IsFinite (n : Node) : Prop :=
  ∀ m, n.Contains m → ∀ c ∈ m.literals, c.isFinite = true

/-! ### Lists and parts -/

theorem Expr.mapM_ofValue? {es : List Expr} (h : ∀ m ∈ es.map Node.expr, m.ReadsBack) :
    (Expr.toValuesOfAll es).mapM Expr.ofValue? =
      some (Expr.mapConstantsOfAll Constant.asStored es) := by
  induction es with
  | nil => rfl
  | cons e es ih =>
    obtain ⟨he, hes⟩ := List.forall_mem_cons.mp h
    rw [Node.ReadsBack] at he
    rw [Expr.toValuesOfAll, List.mapM_cons, he, ih hes]
    rfl

theorem CaseArm.mapM_ofValue? {arms : List CaseArm}
    (h : ∀ m ∈ arms.flatMap CaseArm.nodes, m.ReadsBack) :
    (CaseArm.toValuesOfAll arms).mapM CaseArm.ofValue? =
      some (CaseArm.mapConstantsOfAll Constant.asStored arms) := by
  induction arms with
  | nil => rfl
  | cons arm arms ih =>
    obtain ⟨condition, result⟩ := arm
    obtain ⟨harm, harms⟩ := List.forall_mem_append.mp h
    have hcondition : Condition.ofValue? condition.toValue = _ :=
      harm (.condition condition) (by simp [CaseArm.nodes])
    have hresult : Expr.ofValue? result.toValue = _ := harm (.expr result) (by simp [CaseArm.nodes])
    rw [CaseArm.toValuesOfAll, List.mapM_cons, ih harms, CaseArm.ofValue?,
      CaseArm.mapConstantsOfAll]
    simp [hcondition, hresult]

theorem Subquery.ofValue?_toValue {s : Subquery} (h : ∀ m ∈ s.nodes, m.ReadsBack) :
    Subquery.ofValue? s.toValue = some (s.mapConstants Constant.asStored) := by
  rw [Subquery.ofValue?]
  cases s with
  | query q =>
    have hq : Select.ofValue? q.toValue = _ := h (.select q) (List.mem_singleton_self _)
    rw [Subquery.toValue, Subquery.mapConstants]
    simp [hq]
  | text sql =>
    rw [Subquery.toValue, Subquery.mapConstants]
    simp

theorem Predicate.mapM_ofValue? {ps : List Predicate}
    (h : ∀ m ∈ ps.map Node.predicate, m.ReadsBack) :
    (Predicate.toValuesOfAll ps).mapM Predicate.ofValue? =
      some (Predicate.mapConstantsOfAll Constant.asStored ps) := by
  induction ps with
  | nil => rfl
  | cons p ps ih =>
    obtain ⟨hp, hps⟩ := List.forall_mem_cons.mp h
    rw [Node.ReadsBack] at hp
    rw [Predicate.toValuesOfAll, List.mapM_cons, hp, ih hps]
    rfl

theorem Condition.mapM_ofValue? {gs : List Condition}
    (h : ∀ m ∈ gs.map Node.condition, m.ReadsBack) :
    (Condition.toValuesOfAll gs).mapM Condition.ofValue? =
      some (Condition.mapConstantsOfAll Constant.asStored gs) := by
  induction gs with
  | nil => rfl
  | cons g gs ih =>
    obtain ⟨hg, hgs⟩ := List.forall_mem_cons.mp h
    rw [Node.ReadsBack] at hg
    rw [Condition.toValuesOfAll, List.mapM_cons, hg, ih hgs]
    rfl

theorem Source.ofValue?_toValue {s : Source} (h : ∀ m ∈ s.nodes, m.ReadsBack) :
    Source.ofValue? s.toValue = some (s.mapConstants Constant.asStored) := by
  rw [Source.ofValue?]
  cases s with
  | table name namespaceName =>
    rw [Source.toValue, Source.mapConstants]
    cases namespaceName <;> simp [fieldIfSome]
  | query q =>
    have hq : Select.ofValue? q.toValue = _ := h (.select q) (List.mem_singleton_self _)
    rw [Source.toValue, Source.mapConstants]
    simp [hq]
  | queryText | aliasRef =>
    rw [Source.toValue, Source.mapConstants]
    simp

theorem JoinCondition.ofValue?_toValue {c : JoinCondition} (h : ∀ m ∈ c.nodes, m.ReadsBack) :
    JoinCondition.ofValue? c.toValue = some (c.mapConstants Constant.asStored) := by
  rw [JoinCondition.ofValue?]
  cases c with
  | fields left pairs =>
    rw [JoinCondition.toValue, JoinCondition.mapConstants]
    simp [mapM_map_of_inverse fieldPairOfValue?_fieldPairToValue pairs]
  | condition c =>
    have hc : Condition.ofValue? c.toValue = _ := h (.condition c) (List.mem_singleton_self _)
    rw [JoinCondition.toValue, JoinCondition.mapConstants]
    simp [hc]
  | none => rfl

theorem Join.mapM_ofValue? {js : List Join} (h : ∀ m ∈ js.flatMap Join.nodes, m.ReadsBack) :
    (Join.toValuesOfAll js).mapM Join.ofValue? =
      some (Join.mapConstantsOfAll Constant.asStored js) := by
  induction js with
  | nil => rfl
  | cons j js ih =>
    obtain ⟨joinType, right, condition⟩ := j
    obtain ⟨hj, hjs⟩ := List.forall_mem_append.mp h
    obtain ⟨hright, hcondition⟩ := List.forall_mem_cons.mp hj
    rw [Node.ReadsBack] at hright
    rw [Join.toValuesOfAll, List.mapM_cons, ih hjs, Join.ofValue?, Join.mapConstantsOfAll]
    simp [JoinType.ofName?_name, hright, JoinCondition.ofValue?_toValue hcondition]

theorem SelectItem.mapM_ofValue? {is : List SelectItem}
    (h : ∀ m ∈ is.map fun i => Node.expr i.expr, m.ReadsBack) :
    (SelectItem.toValuesOfAll is).mapM SelectItem.ofValue? =
      some (SelectItem.mapConstantsOfAll Constant.asStored is) := by
  induction is with
  | nil => rfl
  | cons i is ih =>
    obtain ⟨e, aliasName⟩ := i
    obtain ⟨he, his⟩ := List.forall_mem_cons.mp h
    rw [Node.ReadsBack] at he
    rw [SelectItem.toValuesOfAll, List.mapM_cons, ih his, SelectItem.ofValue?,
      SelectItem.mapConstantsOfAll]
    cases aliasName <;> simp [fieldIfSome, he]

/-! ### Nodes -/

theorem Expr.readsBack {e : Expr} (hfinite : ∀ c ∈ (Node.expr e).literals, c.isFinite = true)
    (h : ∀ m ∈ e.nodes, m.ReadsBack) : (Node.expr e).ReadsBack := by
  rw [Node.ReadsBack, Expr.ofValue?]
  cases e with
  | field table name =>
    rw [Expr.toValue, Expr.mapConstants]
    cases table <;> simp [fieldIfSome]
  | constant c =>
    have hc : c.isFinite = true := hfinite c (List.mem_singleton_self c)
    rw [Expr.toValue, Expr.mapConstants]
    simp [Constant.ofValue?_toValue hc]
  | parameter | raw =>
    rw [Expr.toValue, Expr.mapConstants]
    simp
  | function name args =>
    rw [Expr.toValue, Expr.mapConstants]
    simp [Expr.mapM_ofValue? h]
  | aggregate f arg distinct =>
    cases arg with
    | none =>
      rw [Expr.toValue, Expr.mapConstants]
      simp [AggregateFunction.ofName?_name]
    | some arg =>
      -- No expression is stored as null, so an argument is not taken for a missing one.
      have hread : Expr.ofValue? arg.toValue = _ := h (.expr arg) (List.mem_singleton_self _)
      have harg := unlessNull_of_read hread Expr.ofValue?_null
      rw [Expr.toValue, Expr.mapConstants]
      simp [AggregateFunction.ofName?_name, harg]
  | case arms otherwise =>
    obtain ⟨harms, hotherwise⟩ := List.forall_mem_append.mp h
    cases otherwise with
    | none =>
      rw [Expr.toValue, Expr.mapConstants]
      simp [CaseArm.mapM_ofValue? harms]
    | some e =>
      have hread : Expr.ofValue? e.toValue = _ := hotherwise (.expr e) (List.mem_singleton_self _)
      have he := unlessNull_of_read hread Expr.ofValue?_null
      rw [Expr.toValue, Expr.mapConstants]
      simp [CaseArm.mapM_ofValue? harms, he]
  | arithmetic left op right =>
    obtain ⟨hleft, hright⟩ := forall_mem_pair.mp h
    rw [Node.ReadsBack] at hleft hright
    rw [Expr.toValue, Expr.mapConstants]
    simp [ArithmeticOp.ofName?_name, hleft, hright]
  | dateDiff unit start finish =>
    obtain ⟨hstart, hfinish⟩ := forall_mem_pair.mp h
    rw [Node.ReadsBack] at hstart hfinish
    rw [Expr.toValue, Expr.mapConstants]
    simp [DateUnit.ofName?_name, hstart, hfinish]
  | ifNull value fallback =>
    obtain ⟨hvalue, hfallback⟩ := forall_mem_pair.mp h
    rw [Node.ReadsBack] at hvalue hfallback
    rw [Expr.toValue, Expr.mapConstants]
    simp [hvalue, hfallback]
  | subquery q =>
    have hq : Select.ofValue? q.toValue = _ := h (.select q) (List.mem_singleton_self _)
    rw [Expr.toValue, Expr.mapConstants]
    simp [hq]
  | star table =>
    rw [Expr.toValue, Expr.mapConstants]
    cases table <;> simp [fieldIfSome]
  | rowNumber orderBy =>
    rw [Expr.toValue, Expr.mapConstants]
    simp [mapM_map_of_inverse SortKey.ofValue?_toValue orderBy]
  | null => rfl

theorem Predicate.readsBack {p : Predicate}
    (hfinite : ∀ c ∈ (Node.predicate p).literals, c.isFinite = true)
    (h : ∀ m ∈ p.nodes, m.ReadsBack) : (Node.predicate p).ReadsBack := by
  rw [Node.ReadsBack, Predicate.ofValue?]
  cases p with
  | compare left op right =>
    obtain ⟨hleft, hright⟩ := forall_mem_pair.mp h
    rw [Node.ReadsBack] at hleft hright
    rw [Predicate.toValue, Predicate.mapConstants]
    simp [CompareOp.ofName?_name, hleft, hright]
  | between e low high negated =>
    obtain ⟨he, hbounds⟩ := List.forall_mem_cons.mp h
    obtain ⟨hlow, hhigh⟩ := forall_mem_pair.mp hbounds
    rw [Node.ReadsBack] at he hlow hhigh
    rw [Predicate.toValue, Predicate.mapConstants]
    simp [he, hlow, hhigh]
  | inList e values negated =>
    have he : Expr.ofValue? e.toValue = _ := h (.expr e) (List.mem_singleton_self _)
    have hvalues : (values.map Constant.toValue).mapM Constant.ofValue? =
        some (values.map Constant.asStored) :=
      mapM_map_of_read fun c hc => Constant.ofValue?_toValue (hfinite c hc)
    rw [Predicate.toValue, Predicate.mapConstants]
    simp [he, hvalues]
  | inSubquery e s negated =>
    obtain ⟨he, hs⟩ := List.forall_mem_cons.mp h
    rw [Node.ReadsBack] at he
    rw [Predicate.toValue, Predicate.mapConstants]
    simp [he, Subquery.ofValue?_toValue hs]
  | isNull e negated =>
    have he : Expr.ofValue? e.toValue = _ := h (.expr e) (List.mem_singleton_self _)
    rw [Predicate.toValue, Predicate.mapConstants]
    simp [he]
  | «exists» s negated =>
    rw [Predicate.toValue, Predicate.mapConstants]
    simp [Subquery.ofValue?_toValue h]
  | raw sql =>
    rw [Predicate.toValue, Predicate.mapConstants]
    simp

theorem Condition.readsBack {c : Condition} (h : ∀ m ∈ (Node.condition c).children, m.ReadsBack) :
    (Node.condition c).ReadsBack := by
  obtain ⟨connective, predicates, groups⟩ := c
  obtain ⟨hpredicates, hgroups⟩ := List.forall_mem_append.mp h
  rw [Node.ReadsBack, Condition.ofValue?, Condition.toValue, Condition.mapConstants]
  simp [Connective.ofName?_name, Predicate.mapM_ofValue? hpredicates,
    Condition.mapM_ofValue? hgroups]

theorem TableRef.readsBack {t : TableRef} (h : ∀ m ∈ t.source.nodes, m.ReadsBack) :
    (Node.tableRef t).ReadsBack := by
  obtain ⟨source, aliasName⟩ := t
  rw [Node.ReadsBack, TableRef.ofValue?, TableRef.toValue, TableRef.mapConstants]
  cases aliasName <;> simp [fieldIfSome, Source.ofValue?_toValue h]

theorem FromClause.readsBack {f : FromClause}
    (h : ∀ m ∈ (Node.fromClause f).children, m.ReadsBack) : (Node.fromClause f).ReadsBack := by
  obtain ⟨base, joins⟩ := f
  obtain ⟨hbase, hjoins⟩ := List.forall_mem_append.mp h
  rw [Node.ReadsBack, FromClause.ofValue?]
  cases base with
  | none =>
    rw [FromClause.toValue, FromClause.mapConstants]
    simp [Join.mapM_ofValue? hjoins]
  | some base =>
    have hread : TableRef.ofValue? base.toValue = _ :=
      hbase (.tableRef base) (List.mem_singleton_self _)
    have hbase := unlessNull_of_read hread TableRef.ofValue?_null
    rw [FromClause.toValue, FromClause.mapConstants]
    simp [hbase, Join.mapM_ofValue? hjoins]

theorem Select.readsBack {q : Select} (h : ∀ m ∈ (Node.select q).children, m.ReadsBack) :
    (Node.select q).ReadsBack := by
  obtain ⟨items, source, filter, groupBy, groupModifier, having, orderBy, distinct, top, page,
    tableSpace⟩ := q
  obtain ⟨hitems, hparts⟩ := List.forall_mem_append.mp h
  have hsource : FromClause.ofValue? source.toValue = _ := hparts (.fromClause source) (by simp)
  have hfilter : Condition.ofValue? filter.toValue = _ := hparts (.condition filter) (by simp)
  have hhaving : Condition.ofValue? having.toValue = _ := hparts (.condition having) (by simp)
  rw [Node.ReadsBack, Select.ofValue?, Select.toValue, Select.mapConstants]
  simp [SelectItem.mapM_ofValue? hitems, hsource, hfilter,
    mapM_map_of_inverse GroupKey.ofValue?_toValue groupBy, GroupModifier.ofName?_name, hhaving,
    mapM_map_of_inverse SortKey.ofValue?_toValue orderBy, unlessNull_orNull count?_ofCount rfl,
    unlessNull_orNull Page.ofValue?_toValue rfl, unlessNull_orNull string?_string rfl]

namespace Node

/-- A tree is read again if its own constants are finite and the trees right below it are read
again. -/
theorem readsBack_of_children {n : Node} (hfinite : ∀ c ∈ n.literals, c.isFinite = true)
    (h : ∀ m ∈ n.children, m.ReadsBack) : n.ReadsBack := by
  cases n with
  | expr e => exact Expr.readsBack hfinite h
  | predicate p => exact Predicate.readsBack hfinite h
  | condition c => exact Condition.readsBack h
  | tableRef t => exact TableRef.readsBack h
  | fromClause f => exact FromClause.readsBack h
  | select q => exact Select.readsBack h

/-- A tree with finite floats is read again. -/
theorem readsBack {n : Node} (h : n.IsFinite) : n.ReadsBack := by
  induction n using Node.induction with
  | step n ih =>
    refine readsBack_of_children (h n (.self n)) fun c hc => ?_
    exact ih c hc fun m hm => h m (.descend hc hm)

end Node

end SqlTree
