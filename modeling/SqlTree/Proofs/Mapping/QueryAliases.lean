import SqlTree.Proofs.Mapping.DistinctAliases
import SqlTree.Proofs.Mapping.SelectLists

/-!
# Aliases of several queries

The queries of one statement take their aliases from one session, unless a mapping declares an alias
of its own. A session knows the aliases that it handed out, but not those that mappings declare. So
an alias that is taken from it differs from those taken before, and may be one that was declared.

* `Select.baseAlias?`, `baseAliases`: the alias of the base table of a query, and those of several
  queries.
* `Registry.selectEach`: the queries of several record types, one after another.
* `Registry.declaredAliases`, `Registry.tablesToName`: the aliases that mappings declare, and the
  tables that get theirs from the session.

Results:
* `Registry.selectEach_aliases`: the aliases of several queries are those that are declared and
  those from the session.
* `Registry.selectAll_reuses_iff`: when an alias taken from the session is in use.
* `Registry.selectAll_reuses_declared`: an alias that two queries share.
-/

namespace SqlTree

/-- The alias of the base table of a query. -/
def Select.baseAlias? (q : Select) : Option String := q.source.base.bind TableRef.aliasName

/-- The aliases of the base tables of several queries. -/
def baseAliases (qs : List Select) : List String := qs.filterMap Select.baseAlias?

theorem baseAliases_concat {q : Select} {aliasName : String} (h : q.baseAlias? = some aliasName)
    (qs : List Select) : baseAliases (qs ++ [q]) = baseAliases qs ++ [aliasName] := by
  simp [baseAliases, h]

namespace Registry

/-! ## Several queries -/

/-- One more query behind those of other record types, and the session afterwards. A record type
without a mapping has no query and leaves the session as it is. -/
def selectNext (r : Registry) (st : List Select × AliasSession) (recordType : String) :
    List Select × AliasSession :=
  match r.selectAll recordType st.2 with
  | .ok (q, s) => (st.1 ++ [q], s)
  | .error _ => st

/-- The queries of several record types, one after another, and the session afterwards. -/
def selectEach (r : Registry) (s : AliasSession) (recordTypes : List String) :
    List Select × AliasSession :=
  recordTypes.foldl r.selectNext ([], s)

/-- The aliases that the mappings of several record types declare. -/
def declaredAliases (r : Registry) (recordTypes : List String) : List String :=
  recordTypes.filterMap fun name => (r.get? name).bind TableMapping.aliasName

/-- The tables of several record types whose mappings declare no alias. -/
def tablesToName (r : Registry) (recordTypes : List String) : List String :=
  recordTypes.filterMap fun name =>
    (r.get? name).bind fun m => if m.aliasName = none then some m.tableName else none

variable {r : Registry} {recordType : String} {m : TableMapping}

theorem baseAlias?_selectAs (aliasName : String) :
    (selectAs m aliasName).baseAlias? = some aliasName := rfl

theorem selectNext_of_get?_eq_none (hm : r.get? recordType = none)
    (st : List Select × AliasSession) : r.selectNext st recordType = st := by
  simp [selectNext, selectAll, require, hm, bind, Except.bind]

theorem selectNext_of_declared {aliasName : String} (hm : r.get? recordType = some m)
    (halias : m.aliasName = some aliasName) (st : List Select × AliasSession) :
    r.selectNext st recordType = (st.1 ++ [selectAs m aliasName], st.2) := by
  obtain ⟨_, _, hq, ⟨hsome, rfl⟩ | ⟨hnone, -⟩⟩ := selectAll_eq hm st.2
  · obtain rfl := Option.some.inj (halias.symm.trans hsome)
    rw [selectNext, hq]
  · rw [halias] at hnone
    contradiction

theorem selectAll_of_not_declared (hm : r.get? recordType = some m) (halias : m.aliasName = none)
    (s : AliasSession) :
    r.selectAll recordType s =
      .ok (selectAs m (s.next m.tableName).1, (s.next m.tableName).2) := by
  obtain ⟨_, _, hq, ⟨hsome, -⟩ | ⟨-, hnext⟩⟩ := selectAll_eq hm s
  · rw [halias] at hsome
    contradiction
  · rw [hq, hnext]

theorem selectEach_concat (s : AliasSession) (recordTypes : List String) :
    r.selectEach s (recordTypes ++ [recordType]) =
      r.selectNext (r.selectEach s recordTypes) recordType :=
  List.foldl_concat ..

theorem declaredAliases_concat (recordTypes : List String) :
    r.declaredAliases (recordTypes ++ [recordType]) = r.declaredAliases recordTypes ++
      ((r.get? recordType).bind TableMapping.aliasName).toList := by
  rw [declaredAliases, List.filterMap_append, ← declaredAliases]
  cases h : (r.get? recordType).bind TableMapping.aliasName <;> simp [h]

theorem tablesToName_concat (recordTypes : List String) :
    r.tablesToName (recordTypes ++ [recordType]) = r.tablesToName recordTypes ++
      ((r.get? recordType).bind fun m =>
        if m.aliasName = none then some m.tableName else none).toList := by
  rw [tablesToName, List.filterMap_append, ← tablesToName]
  cases h : (r.get? recordType).bind fun m =>
    if m.aliasName = none then some m.tableName else none <;> simp [h]

theorem selectNext_of_not_declared (hm : r.get? recordType = some m) (halias : m.aliasName = none)
    (st : List Select × AliasSession) :
    r.selectNext st recordType =
      (st.1 ++ [selectAs m (st.2.next m.tableName).1], (st.2.next m.tableName).2) := by
  rw [selectNext, selectAll_of_not_declared hm halias]

/-- The session afterwards is one that was asked for the tables whose mappings declare no alias, and
the aliases of the queries are those that are declared and those from the session. -/
theorem selectEach_aliases (s : AliasSession) (recordTypes : List String) :
    (r.selectEach s recordTypes).2 = (s.nextEach (r.tablesToName recordTypes)).2 ∧
      ∀ aliasName, aliasName ∈ baseAliases (r.selectEach s recordTypes).1 ↔
        aliasName ∈ r.declaredAliases recordTypes ∨
          aliasName ∈ (s.nextEach (r.tablesToName recordTypes)).1 := by
  induction recordTypes using List.reverseRecOn with
  | nil => exact ⟨rfl, by simp [selectEach, baseAliases, declaredAliases, tablesToName,
      AliasSession.nextEach]⟩
  | append_singleton recordTypes recordType ih =>
    obtain ⟨hsession, haliases⟩ := ih
    rw [selectEach_concat, declaredAliases_concat, tablesToName_concat]
    cases hm : r.get? recordType with
    | none =>
      rw [selectNext_of_get?_eq_none hm]
      simpa using ⟨hsession, haliases⟩
    | some m =>
      cases halias : m.aliasName with
      | some declared =>
        rw [selectNext_of_declared hm halias, baseAliases_concat (baseAlias?_selectAs declared)]
        simp [halias, hsession, haliases, or_right_comm]
      | none =>
        rw [selectNext_of_not_declared hm halias, baseAliases_concat (baseAlias?_selectAs _),
          hsession]
        simp [halias, haliases, AliasSession.nextEach_concat, AliasSession.handOut, or_assoc]

/-! ## Aliases in use -/

/-- The query for a record type whose mapping declares no alias has the next one of the session.
This is the alias of an earlier query exactly if the mapping of that one declares it, or if all
numbers of its letter were handed out. -/
theorem selectAll_reuses_iff (hm : r.get? recordType = some m) (halias : m.aliasName = none)
    (s : AliasSession) (earlier : List String) :
    ∃ q s' aliasName,
      r.selectAll recordType (r.selectEach s earlier).2 = .ok (q, s') ∧
      q.baseAlias? = some aliasName ∧
      aliasName = s.aliasAfter (aliasLetter m.tableName)
        (timesAsked (aliasLetter m.tableName) (r.tablesToName earlier)) ∧
      (aliasName ∈ baseAliases (r.selectEach s earlier).1 ↔
        aliasName ∈ r.declaredAliases earlier ∨
          2 ^ 32 ≤ timesAsked (aliasLetter m.tableName) (r.tablesToName earlier)) := by
  obtain ⟨hsession, haliases⟩ := selectEach_aliases (r := r) s earlier
  refine ⟨_, _, _, selectAll_of_not_declared hm halias _, baseAlias?_selectAs _, ?_, ?_⟩
  · rw [hsession, AliasSession.next_nextEach]
  · rw [haliases, hsession, AliasSession.next_mem_nextEach_iff]

/-- Record types of three tables with one letter, the second of which declares an alias. -/
def stores : List TableMapping :=
  [{ recordType := "Customer", tableName := "customers" },
    { recordType := "Card", tableName := "cards", aliasName := some "card" },
    { recordType := "City", tableName := "cities" }]

/-- The alias of the third query differs from those of the others. -/
theorem selectAll_reuses_iff_stores :
    (ofList stores).get? "City" = some { recordType := "City", tableName := "cities" } ∧
    ∃ q s', (ofList stores).selectAll "City"
        ((ofList stores).selectEach .empty ["Customer", "Card"]).2 = .ok (q, s') ∧
      q.baseAlias? = some "c2" ∧
      "c2" ∉ baseAliases ((ofList stores).selectEach .empty ["Customer", "Card"]).1 := by
  have hget : (ofList stores).get? "City" =
      some { recordType := "City", tableName := "cities" } := by decide +kernel
  obtain ⟨q, s', aliasName, hq, hbase, rfl, hiff⟩ :=
    selectAll_reuses_iff hget rfl .empty ["Customer", "Card"]
  refine ⟨hget, q, s', hq, hbase, fun hreused => ?_⟩
  obtain hdeclared | hused := hiff.mp hreused
  · exact absurd hdeclared (by decide +kernel)
  · exact absurd hused (by decide +kernel)

/-- Orders that declare the letter of customers as their alias. -/
def abbreviatedOrders : List TableMapping :=
  [{ recordType := "Order", tableName := "orders", aliasName := some "c"
     columns := [⟨"id", "id", false⟩] },
    { recordType := "Customer", tableName := "customers", columns := [⟨"id", "id", false⟩] }]

/-- The query for customers takes the alias from a new session that the one for orders has. -/
theorem selectAll_reuses_declared :
    baseAliases ((ofList abbreviatedOrders).selectEach .empty ["Order"]).1 = ["c"] ∧
    ((ofList abbreviatedOrders).get? "Customer").map TableMapping.aliasName = some none ∧
    ∃ q s', (ofList abbreviatedOrders).selectAll "Customer"
        ((ofList abbreviatedOrders).selectEach .empty ["Order"]).2 = .ok (q, s') ∧
      q.baseAlias? = some "c" :=
  ⟨by decide +kernel, by decide +kernel, _, _, rfl, by decide +kernel⟩

end Registry

end SqlTree
