import SqlTree.Proofs.Paging.ValidExpansion
import SqlTree.Proofs.Rendering.Pieces

/-!
# Joins on equal fields

A join on equal fields names an earlier source, and compares fields of it with those of the joined
source. The check looks for the name among those of the earlier sources, so one of them has it; it
accepts a name that several sources have, the joined one among them. Then the name does not say
whose fields are compared.

* `FromClause.upTo`: the base source and some of the joins.
* `FromClause.NamedAt`, `FromClause.Means`: whether a source has a name, and whether it is the only
  one.

Results:
* `FromClause.means_iff_count`: the name of a source means it exactly if it is there once.
* `FromClause.words_fieldJoin`: where a join on equal fields is written, and how.
* `FromClause.fieldJoin_resolves_iff`: when the two sources are the ones that are meant.
* `FromClause.fieldJoin_names_itself`: a valid join on fields of two sources with one name.
-/

namespace SqlTree

open Token

/-! ## Names of sources -/

section Lists

variable {α β : Type} {g : α → Option β} {l : List α} {b : β}

theorem exists_getElem?_bind_iff_mem :
    (∃ k : Nat, l[k]?.bind g = some b) ↔ b ∈ l.filterMap g := by
  rw [List.mem_filterMap]
  constructor
  · rintro ⟨k, hk⟩
    obtain ⟨a, ha, hvalue⟩ := Option.bind_eq_some_iff.mp hk
    exact ⟨a, List.mem_of_getElem? ha, hvalue⟩
  · rintro ⟨a, ha, hvalue⟩
    obtain ⟨k, hk⟩ := List.mem_iff_getElem?.mp ha
    exact ⟨k, by rw [hk, Option.bind_some, hvalue]⟩

/-- In a list where some member has a value, no other one has it exactly if the value is there
once. -/
theorem forall_getElem?_bind_iff_count [DecidableEq β] {i : Nat} (h : l[i]?.bind g = some b) :
    (∀ k : Nat, l[k]?.bind g = some b ↔ k = i) ↔ (l.filterMap g).count b = 1 := by
  induction l generalizing i with
  | nil => simp at h
  | cons a l ih =>
    by_cases ha : g a = some b
    · rw [List.filterMap_cons_some ha, List.count_cons_self, Nat.add_eq_right, List.count_eq_zero,
        ← exists_getElem?_bind_iff_mem]
      constructor
      · rintro honly ⟨k, hk⟩
        have hzero : 0 = i := (honly 0).mp (by simpa using ha)
        have hsucc : k + 1 = i := (honly (k + 1)).mp (by simpa using hk)
        omega
      · intro hnone k
        cases i with
        | zero =>
          cases k with
          | zero => simpa using ha
          | succ k => simpa using fun hk => hnone ⟨k, hk⟩
        | succ i => exact absurd ⟨i, by simpa using h⟩ hnone
    · have hcount : ((a :: l).filterMap g).count b = (l.filterMap g).count b := by
        cases hga : g a with
        | none => rw [List.filterMap_cons_none hga]
        | some c => rw [List.filterMap_cons_some hga,
            List.count_cons_of_ne (by simpa [hga] using ha)]
      cases i with
      | zero => exact absurd h (by simpa using ha)
      | succ i =>
        rw [hcount, ← ih (i := i) (by simpa using h)]
        constructor
        · intro honly k
          simpa using honly (k + 1)
        · intro honly k
          cases k with
          | zero => simpa using ha
          | succ k => simpa using honly k

end Lists

theorem TableRef.refName_of_aliasName_ne_none {t : TableRef} (h : t.aliasName ≠ none) :
    ∃ name, t.refName = some name := by
  obtain ⟨name, hname⟩ := Option.ne_none_iff_exists'.mp h
  exact ⟨name, by rw [TableRef.refName, hname]; rfl⟩

namespace FromClause

/-- The base source and some joins. -/
def upTo (f : FromClause) (joins : List Join) : FromClause := ⟨f.base, joins⟩

/-- The source at a place has a name. -/
def NamedAt (f : FromClause) (name : String) (place : Nat) : Prop :=
  f.sources[place]?.bind TableRef.refName = some name

/-- The source at a place, and no other one, has a name. -/
def Means (f : FromClause) (name : String) (place : Nat) : Prop :=
  ∀ k, f.NamedAt name k ↔ k = place

variable {f : FromClause} {name left right : String} {place : Nat} {before after : List Join}
  {j : Join} {pairs : List (String × String)}

/-- A source has its name to itself exactly if the name is there once. -/
theorem means_iff_count (h : f.NamedAt name place) :
    f.Means name place ↔ f.names.count name = 1 :=
  forall_getElem?_bind_iff_count h

theorem exists_namedAt_iff_mem : (∃ place, f.NamedAt name place) ↔ name ∈ f.names :=
  exists_getElem?_bind_iff_mem

theorem Means.namedAt (h : f.Means name place) : f.NamedAt name place := (h place).mpr rfl

theorem exists_means_iff_count : (∃ place, f.Means name place) ↔ f.names.count name = 1 := by
  constructor
  · rintro ⟨place, hmeans⟩
    exact (means_iff_count hmeans.namedAt).mp hmeans
  · intro hcount
    have hmem : name ∈ f.names := List.count_pos_iff.mp (by omega)
    obtain ⟨place, hplace⟩ := exists_namedAt_iff_mem.mpr hmem
    exact ⟨place, (means_iff_count hplace).mpr hcount⟩

theorem sources_upTo_concat :
    (f.upTo (before ++ [j])).sources = (f.upTo before).sources ++ [j.right] := by
  simp [sources, upTo]

theorem names_upTo_concat (hright : j.right.refName = some right) :
    (f.upTo (before ++ [j])).names = (f.upTo before).names ++ [right] := by
  rw [names, sources_upTo_concat, List.filterMap_append, ← names]
  simp [hright]

theorem namedAt_upTo_concat (hright : j.right.refName = some right) :
    (f.upTo (before ++ [j])).NamedAt right (f.upTo before).sources.length := by
  rw [NamedAt, sources_upTo_concat]
  simpa using hright

theorem lt_length_of_namedAt (h : f.NamedAt name place) : place < f.sources.length := by
  obtain ⟨t, ht, -⟩ := Option.bind_eq_some_iff.mp h
  exact (List.getElem?_eq_some_iff.mp ht).1

theorem namedAt_upTo_concat_of_namedAt (h : (f.upTo before).NamedAt name place) :
    (f.upTo (before ++ [j])).NamedAt name place := by
  rw [NamedAt, sources_upTo_concat, List.getElem?_append_left (lt_length_of_namedAt h)]
  exact h

/-! ## Valid joins -/

/-- The name on the left of a join is one of an earlier source, and the joined source has one. -/
theorem names_fieldJoin (hf : f.violations = []) (hjoins : f.joins = before ++ j :: after)
    (hfields : j.condition = .fields left pairs) :
    left ∈ (f.upTo before).names ∧ pairs ≠ [] ∧ ∃ right, j.right.refName = some right := by
  have hrule : f.KeepsRule := (f.violations_eq_nil_iff.mp hf).1
  have hjoin : j.KeepsRule (f.upTo before).names := hrule.joins before j after hjoins
  have hfits := hjoin.fits
  rw [hfields] at hfits
  exact ⟨hfits.2.1, hfits.2.2, TableRef.refName_of_aliasName_ne_none hjoin.hasAlias⟩

/-- The left name is that of one earlier source and not of the joined one exactly if it is there
once up to the join. -/
theorem means_left_iff (hleft : left ∈ (f.upTo before).names)
    (hright : j.right.refName = some right) :
    (∃ place, (f.upTo before).Means left place) ∧ left ≠ right ↔
      (f.upTo (before ++ [j])).names.count left = 1 := by
  have hpos : 0 < (f.upTo before).names.count left := List.count_pos_iff.mpr hleft
  rw [exists_means_iff_count, names_upTo_concat hright, List.count_append]
  by_cases heq : left = right
  · obtain rfl := heq
    rw [List.count_singleton_self]
    constructor
    · rintro ⟨-, hne⟩
      exact absurd rfl hne
    · intro hcount
      omega
  · have hlast : [right].count left = 0 := List.count_eq_zero.mpr (by simpa using heq)
    rw [hlast, Nat.add_zero]
    exact and_iff_left heq

/-- The two names mean an earlier source and the joined one exactly if each of them is there once up
to the join. -/
theorem means_both_iff (hleft : left ∈ (f.upTo before).names)
    (hright : j.right.refName = some right) :
    (∃ place < (f.upTo before).sources.length, (f.upTo (before ++ [j])).Means left place) ∧
        (f.upTo (before ++ [j])).Means right (f.upTo before).sources.length ↔
      (f.upTo (before ++ [j])).names.count left = 1 ∧
        (f.upTo (before ++ [j])).names.count right = 1 := by
  rw [means_iff_count (namedAt_upTo_concat hright)]
  refine and_congr_left fun _ => ?_
  constructor
  · rintro ⟨place, -, hmeans⟩
    exact exists_means_iff_count.mp ⟨place, hmeans⟩
  · intro hcount
    obtain ⟨place, hplace⟩ := exists_namedAt_iff_mem.mpr hleft
    have hscope : (f.upTo (before ++ [j])).NamedAt left place :=
      namedAt_upTo_concat_of_namedAt hplace
    exact ⟨place, lt_length_of_namedAt hplace, (means_iff_count hscope).mpr hcount⟩

/-! ## Words -/

variable {d : Dialect} {tableSpace : Option String}

theorem words_of_joins_eq_append {later : List Join} (h : f.joins = before ++ later) :
    f.words d tableSpace =
      (f.upTo before).words d tableSpace ++ Join.wordsOfAll d tableSpace later := by
  obtain ⟨base, joins⟩ := f
  obtain rfl : joins = before ++ later := h
  cases base <;> simp [upTo, FromClause.words, Join.wordsOfAll_eq_flatMap]

theorem words_of_fieldJoin (hjoins : f.joins = before ++ j :: after)
    (hfields : j.condition = .fields left pairs) (hright : j.right.refName = some right) :
    f.words d tableSpace = (f.upTo before).words d tableSpace ++
      (j.joinType.words ++ [[keyword .JOIN], j.right.tokens d tableSpace, [keyword .ON],
        fieldEquations left right pairs]) ++ Join.wordsOfAll d tableSpace after := by
  rw [words_of_joins_eq_append hjoins, Join.wordsOfAll_eq_flatMap, List.flatMap_cons,
    ← Join.wordsOfAll_eq_flatMap, hfields, hright]
  simp [JoinCondition.words]

theorem joins_expandPages : f.expandPages.joins = f.joins.map Join.expandPages := by
  obtain ⟨_ | base, joins⟩ := f <;> exact Join.expandPagesOfAll_eq_map joins

theorem expandPages_upTo :
    (f.upTo before).expandPages = f.expandPages.upTo (before.map Join.expandPages) := by
  obtain ⟨_ | base, joins⟩ := f <;> simp [upTo, FromClause.expandPages]

/-- The words of a join on equal fields stand behind those of the sources before it. Each field of
the left name is compared with one of the name of the joined source. -/
theorem words_fieldJoin (hjoins : f.joins = before ++ j :: after)
    (hfields : j.condition = .fields left pairs) (hright : j.right.refName = some right)
    (d : Dialect) (tableSpace : Option String) :
    ∃ rest, (f.forDialect d).words d tableSpace =
      ((f.upTo before).forDialect d).words d tableSpace ++
        (j.joinType.words ++ [[keyword .JOIN], (j.right.forDialect d).tokens d tableSpace,
          [keyword .ON], fieldEquations left right pairs]) ++ rest := by
  unfold FromClause.forDialect TableRef.forDialect
  cases d.expandsPages with
  | false => exact ⟨_, words_of_fieldJoin hjoins hfields hright⟩
  | true =>
    have hexpanded : f.expandPages.joins =
        before.map Join.expandPages ++ j.expandPages :: after.map Join.expandPages := by
      rw [joins_expandPages, hjoins, List.map_append, List.map_cons]
    have hname : j.expandPages.right.refName = some right := by
      rw [Join.expandPages, TableRef.refName_expandPages, hright]
    have hcondition : j.expandPages.condition = .fields left pairs := by
      rw [Join.expandPages, hfields, JoinCondition.expandPages]
    rw [if_pos rfl, if_pos rfl, if_pos rfl, expandPages_upTo]
    exact ⟨_, words_of_fieldJoin hexpanded hcondition hname⟩

/-! ## Sources that are meant -/

/-- In a valid clause, the left name of a join on equal fields is one of the earlier sources. It is
that of one of them only, and not of the joined source, exactly if it is there once up to the join.
The fields are then written as those of the left name and of the joined source; these names mean an
earlier source and the joined one exactly if the second is there once as well. -/
theorem fieldJoin_resolves_iff (hf : f.violations = []) (hjoins : f.joins = before ++ j :: after)
    (hfields : j.condition = .fields left pairs) :
    ∃ right, j.right.refName = some right ∧
      (∃ place, (f.upTo before).NamedAt left place) ∧
      ((∃ place, (f.upTo before).Means left place) ∧ left ≠ right ↔
        (f.upTo (before ++ [j])).names.count left = 1) ∧
      ((∃ place < (f.upTo before).sources.length, (f.upTo (before ++ [j])).Means left place) ∧
          (f.upTo (before ++ [j])).Means right (f.upTo before).sources.length ↔
        (f.upTo (before ++ [j])).names.count left = 1 ∧
          (f.upTo (before ++ [j])).names.count right = 1) ∧
      pairs ≠ [] ∧ ∀ d tableSpace, ∃ rest, (f.forDialect d).words d tableSpace =
        ((f.upTo before).forDialect d).words d tableSpace ++
          (j.joinType.words ++ [[keyword .JOIN], (j.right.forDialect d).tokens d tableSpace,
            [keyword .ON], fieldEquations left right pairs]) ++ rest := by
  obtain ⟨hleft, hpairs, right, hright⟩ := names_fieldJoin hf hjoins hfields
  exact ⟨right, hright, exists_namedAt_iff_mem.mpr hleft, means_left_iff hleft hright,
    means_both_iff hleft hright, hpairs, words_fieldJoin hjoins hfields hright⟩

/-- Customers, joined to orders. -/
def customersJoin : Join :=
  ⟨.inner, ⟨.table "customers" none, some "c"⟩, .fields "orders" [("customer", "id")]⟩

/-- Regions, joined to customers. -/
def regionsJoin : Join :=
  ⟨.left, ⟨.table "regions" none, some "r"⟩, .fields "c" [("region", "id"), ("land", "land")]⟩

/-- Orders with their customers and the regions of these. -/
def orderRegions : FromClause :=
  ⟨some ⟨.table "orders" none, none⟩, [customersJoin, regionsJoin]⟩

/-- The regions are compared with one of the sources before them. -/
theorem fieldJoin_resolves_iff_regions :
    orderRegions.violations = [] ∧
    orderRegions.joins = [customersJoin] ++ regionsJoin :: [] ∧
    regionsJoin.condition = .fields "c" [("region", "id"), ("land", "land")] ∧
    (∃ place < 2, orderRegions.Means "c" place) ∧ orderRegions.Means "r" 2 := by
  have hvalid : orderRegions.violations = [] := by decide +kernel
  have hjoins : orderRegions.joins = [customersJoin] ++ regionsJoin :: [] := rfl
  obtain ⟨right, hright, -, -, hmeans, -⟩ := fieldJoin_resolves_iff hvalid hjoins rfl
  obtain rfl : "r" = right := Option.some.inj hright
  exact ⟨hvalid, hjoins, rfl, hmeans.mpr (by decide)⟩

/-- Employees, joined under the same name to the employees that they lead. -/
def leadersJoin : Join :=
  ⟨.inner, ⟨.table "employees" none, some "e"⟩, .fields "e" [("manager", "id")]⟩

/-- Employees with their leaders. -/
def employees : FromClause := ⟨some ⟨.table "employees" none, some "e"⟩, [leadersJoin]⟩

/-- The clause is valid, but the left name of the join is that of the joined source as well. -/
theorem fieldJoin_names_itself :
    employees.violations = [] ∧ employees.joins = [leadersJoin] ∧
    leadersJoin.condition = .fields "e" [("manager", "id")] ∧
    leadersJoin.right.refName = some "e" ∧
    (¬∃ place, employees.Means "e" place) ∧
    ∃ ts, employees.render .sqlServer none = .ok ts ∧ listText .sqlServer ts =
      "[employees] AS [e] INNER JOIN [employees] AS [e] ON [e].[manager] = [e].[id]" := by
  refine ⟨by decide +kernel, rfl, rfl, rfl, ?_, _, rfl, by decide +kernel⟩
  rintro ⟨place, hmeans⟩
  have hbase : 0 = place := (hmeans 0).mp rfl
  have hjoined : 1 = place := (hmeans 1).mp rfl
  omega

end FromClause

end SqlTree
