import SqlTree.Proofs.Rendering.ValidTokens

/-!
# Members of a union

A union writes its members one after another, each behind the connector that its modifier asks for.
What limits the rows of a member or orders them would belong to the whole union if it stood outside
of parentheses. Members have no order and no page of their own, and a member that ends in a limit is
put in parentheses.

* `Token.unionModifiers`: the connectors outside of parentheses, as what they stand for;
* `Token.Unlimited`: no order and no limit stands outside of parentheses;
* `Token.Unconnected`: no connector stands in a list of tokens at all.

Results:
* `UnionMember.unlimited_tokens`, `UnionMember.unconnected_tokens`: the tokens of a member show
  neither limits nor connectors.
* `Union.unionModifiers_tokens`: the connectors of a union are the modifiers of its members.
* `Union.connectors_of_render`: a valid union shows no order and no limit of a member, and one
  connector for each member but the first, with ALL exactly if the modifier of the member says so.
-/

namespace SqlTree

open Token

/-- The keywords that order and limit rows. -/
def Keyword.rowClauses : List Keyword := [ORDER_BY, LIMIT, OFFSET, FETCH]

namespace Token

/-! ## Connectors -/

/-- What the connectors at depth 0 of a list stand for, if the list begins at a given depth: all
rows if the next word is ALL, and else distinct ones. -/
def unionModifiers (depth : Nat) : List Token → List UnionModifier
  | [] => []
  | t :: ts =>
    if t = symbol .openParen then unionModifiers (depth + 1) ts
    else if t = symbol .closeParen then unionModifiers (depth - 1) ts
    else if depth = 0 ∧ t = keyword .UNION then
      (if [space, keyword .ALL] <+: ts then .all else .distinct) :: unionModifiers depth ts
    else unionModifiers depth ts

@[simp] theorem unionModifiers_space (depth : Nat) (ts : List Token) :
    unionModifiers depth (space :: ts) = unionModifiers depth ts := by
  simp [unionModifiers]

@[simp] theorem unionModifiers_keyword {k : Keyword} (hk : k ≠ .UNION) (depth : Nat)
    (ts : List Token) : unionModifiers depth (keyword k :: ts) = unionModifiers depth ts := by
  simp [unionModifiers, hk]

@[simp] theorem unionModifiers_union (ts : List Token) :
    unionModifiers 0 (keyword .UNION :: ts) =
      (if [space, keyword .ALL] <+: ts then .all else .distinct) :: unionModifiers 0 ts := by
  simp [unionModifiers]

theorem length_unionModifiers (depth : Nat) (ts : List Token) :
    (unionModifiers depth ts).length = (topLevel depth ts).count (keyword .UNION) := by
  induction ts generalizing depth with
  | nil => rfl
  | cons t ts ih =>
    rw [unionModifiers, topLevel]
    split
    · exact ih _
    · split
      · exact ih _
      · by_cases hdepth : depth = 0
        · rw [if_pos hdepth, List.count_cons, ← ih]
          by_cases ht : t = keyword .UNION <;> simp [hdepth, ht]
        · simp [hdepth, ih]

/-- A list without connectors, whose parentheses pair up, adds none. -/
theorem Outline.unionModifiers_append {ts : List Token} {ks : List Keyword} (h : Outline ts ks)
    (hnone : keyword .UNION ∉ ts) (depth : Nat) (us : List Token) :
    unionModifiers depth (ts ++ us) = unionModifiers depth us := by
  induction h generalizing depth us with
  | nil => rfl
  | @token t ts ks hopen hclose _ ih =>
    rw [List.mem_cons, not_or] at hnone
    obtain ⟨ht, hts⟩ := hnone
    rw [List.cons_append, unionModifiers, if_neg hopen, if_neg hclose,
      if_neg fun hunion => ht hunion.2.symm, ih hts]
  | @group part ts inner ks _ _ ihpart ih =>
    simp only [parens_append, List.mem_cons, List.mem_append, not_or] at hnone
    obtain ⟨-, hpart, -, hts⟩ := hnone
    rw [parens_append, List.cons_append, unionModifiers, if_pos rfl, List.append_assoc,
      ihpart hpart, List.cons_append, unionModifiers, if_neg (by decide), if_pos rfl,
      Nat.add_sub_cancel, ih hts]

/-- A list is not empty and has no connector at any depth. -/
structure Unconnected (ts : List Token) : Prop where
  ne_nil : ts ≠ []
  union : keyword .UNION ∉ ts
  all : keyword .ALL ∉ ts

theorem unconnected_singleton {t : Token} (hunion : t ≠ keyword .UNION)
    (hall : t ≠ keyword .ALL) : Unconnected [t] where
  ne_nil := List.cons_ne_nil t []
  union h := hunion (List.mem_singleton.mp h).symm
  all h := hall (List.mem_singleton.mp h).symm

theorem Unconnected.append {ts us : List Token} (h : Unconnected ts) (h' : Unconnected us) :
    Unconnected (ts ++ us) where
  ne_nil := List.append_ne_nil_of_left_ne_nil h.ne_nil us
  union hmem := (List.mem_append.mp hmem).elim h.union h'.union
  all hmem := (List.mem_append.mp hmem).elim h.all h'.all

theorem Unconnected.cons {t : Token} {ts : List Token} (h : Unconnected ts)
    (hunion : t ≠ keyword .UNION) (hall : t ≠ keyword .ALL) : Unconnected (t :: ts) :=
  (unconnected_singleton hunion hall).append h

/-- A keyword that is no connector leads what has none. -/
theorem leads_unconnected {k : Keyword} (hunion : k ≠ .UNION) (hall : k ≠ .ALL) :
    Leads Unconnected k := fun _ h =>
  (h.cons (by simp) (by simp)).cons (by simp [hunion]) (by simp [hall])

/-- Neither parts nor what separates or encloses them are connectors. -/
theorem composed_unconnected : Composed Unconnected where
  part := by
    intro t ht
    refine unconnected_singleton ?_ ?_
    · rintro rfl
      contradiction
    · rintro rfl
      contradiction
  led := by
    intro k hk
    refine leads_unconnected ?_ ?_
    · rintro rfl
      contradiction
    · rintro rfl
      contradiction
  append := Unconnected.append
  spaced hts hus := hts.append (hus.cons (by simp) (by simp))
  listed hts hus := hts.append ((hus.cons (by simp) (by simp)).cons (by simp) (by simp))
  parens h := (h.cons (by simp) (by simp)).append (unconnected_singleton (by simp) (by simp))
  noParts := (unconnected_singleton (by simp) (by simp)).cons (by simp) (by simp)

/-! ## Limits -/

/-- The parentheses of a list pair up, and outside of them no clause orders or limits rows. -/
def Unlimited (ts : List Token) : Prop :=
  ∃ ks, Outline ts ks ∧ ∀ k ∈ Keyword.rowClauses, k ∉ ks

theorem Sealed.unlimited {ts : List Token} (h : Sealed ts) : Unlimited ts :=
  ⟨[], h, fun _ _ => List.not_mem_nil⟩

theorem Unlimited.append {ts us : List Token} (h : Unlimited ts) (h' : Unlimited us) :
    Unlimited (ts ++ us) := by
  obtain ⟨ks, hks, hnone⟩ := h
  obtain ⟨ls, hls, hnone'⟩ := h'
  refine ⟨ks ++ ls, hks.append hls, fun k hk => ?_⟩
  rw [List.mem_append, not_or]
  exact ⟨hnone k hk, hnone' k hk⟩

theorem Unlimited.flatMap {α : Type} {xs : List α} {f : α → List Token}
    (h : ∀ x ∈ xs, Unlimited (f x)) : Unlimited (xs.flatMap f) := by
  induction xs with
  | nil => exact sealed_nil.unlimited
  | cons x xs ih =>
    obtain ⟨hx, hxs⟩ := List.forall_mem_cons.mp h
    exact hx.append (ih hxs)

theorem Unlimited.notMem_topLevel {ts : List Token} (h : Unlimited ts) {k : Keyword}
    (hk : k ∈ Keyword.rowClauses) : keyword k ∉ topLevel 0 ts := by
  obtain ⟨ks, hks, hnone⟩ := h
  have hclause : clause? (keyword k) = some k := by
    revert k
    decide
  intro hmem
  refine hnone k hk ?_
  rw [← hks.topClauses_eq]
  exact List.mem_filterMap.mpr ⟨_, hmem, hclause⟩

end Token

/-! ## Members -/

variable {d : Dialect}

/-- Expanding leaves the order and the limit of a query without a page as they are. -/
theorem Select.limits_forDialect {q : Select} (hp : q.page = none) :
    (q.forDialect d).orderBy = q.orderBy ∧ (q.forDialect d).top = q.top ∧
      (q.forDialect d).page = none := by
  rw [Select.forDialect_eq_expandParts d fun _ => hp]
  split <;> exact ⟨rfl, rfl, hp⟩

/-- A query without a page ends in no limit, unless it has one and limits are trailing. -/
theorem limitingWords_eq_nil {top : Option UInt64}
    (h : ¬(top.isSome = true ∧ d.topPlace = .trailing)) : limitingWords d top none = [] := by
  cases top with
  | none => cases d <;> rfl
  | some n =>
    have hplace : d.topPlace ≠ .trailing := fun hplace => h ⟨rfl, hplace⟩
    cases d with
    | sqlServer => rfl
    | _ => exact absurd rfl hplace

namespace UnionMember

variable {m : UnionMember}

/-- A member without an order and a page of its own orders and limits no rows outside of
parentheses. -/
theorem unlimited_tokens (ho : m.query.orderBy = []) (hp : m.query.page = none) :
    Unlimited (m.tokens d) := by
  obtain ⟨horder, htop, hpage⟩ := Select.limits_forDialect (d := d) hp
  unfold UnionMember.tokens
  split
  · obtain ⟨ls, -, h⟩ := Select.outline_tokens d (m.query.forDialect d)
    exact Sealed.unlimited h.parens
  · rename_i hlimit
    have hnone : limitingWords d (m.query.forDialect d).top (m.query.forDialect d).page = [] := by
      rw [htop, hpage, limitingWords_eq_nil hlimit]
    refine ⟨_, Select.outline_clauses d hnone, fun k hk => ?_⟩
    simp only [Keyword.rowClauses, List.mem_cons, List.not_mem_nil, or_false] at hk
    rcases hk with rfl | rfl | rfl | rfl <;> simp [Select.clauses, horder, ho]

/-- A member that is valid and can be expressed has no connector, and it has tokens. -/
theorem unconnected_tokens (hvalid : m.query.violations = [])
    (hobstacles : (m.query.forDialect d).obstacles d = []) : Unconnected (m.tokens d) := by
  have hexpanded : (Node.select (m.query.forDialect d)).violations = [] := by
    rw [← Node.forDialect_select]
    exact Node.violations_forDialect hvalid
  have hkeywords : ∀ k ∈ Keyword.special, Placed Unconnected k := by
    intro k hk
    have hne : k ≠ .UNION ∧ k ≠ .ALL := by
      revert k
      decide
    unfold Placed
    split
    · exact unconnected_singleton (by simp [hne.1]) (by simp [hne.2])
    · exact leads_unconnected hne.1 hne.2
  have hnode : (Node.select (m.query.forDialect d)).TokensHave d Unconnected :=
    Node.tokensHave_of_valid composed_unconnected hkeywords
      (unconnected_singleton nofun nofun) hexpanded hobstacles nofun
  unfold UnionMember.tokens
  split
  · exact composed_unconnected.parens hnode
  · exact hnode

/-- What stands between a member and the one before it. -/
def connector (m : UnionMember) : List Token :=
  space :: keyword .UNION :: (if m.modifier = .all then [space, keyword .ALL] else []) ++ [space]

theorem sealed_connector (m : UnionMember) : Sealed m.connector := by
  unfold connector
  split <;> simp [Keyword.clauses]

/-- The connector in front of a member stands for the modifier of the member. -/
theorem unionModifiers_connector (h : Unconnected (m.tokens d)) {ks : List Keyword}
    (hks : Outline (m.tokens d) ks) (us : List Token) :
    unionModifiers 0 (m.connector ++ m.tokens d ++ us) = m.modifier :: unionModifiers 0 us := by
  have hrest : unionModifiers 0 (m.tokens d ++ us) = unionModifiers 0 us :=
    hks.unionModifiers_append h.union 0 us
  cases hm : m.modifier with
  | all => simp [connector, hm, hrest]
  | distinct =>
    have hall : ¬[space, keyword .ALL] <+: space :: (m.tokens d ++ us) := by
      obtain ⟨t, ts, hts⟩ := List.exists_cons_of_ne_nil h.ne_nil
      rw [hts, List.cons_append, List.cons_prefix_cons, List.cons_prefix_cons]
      rintro ⟨-, rfl, -⟩
      exact h.all (hts ▸ List.mem_cons_self)
    simp [connector, hm, hrest, hall]

theorem unionModifiers_flatMap {ms : List UnionMember}
    (h : ∀ m ∈ ms, Unconnected (m.tokens d)) :
    unionModifiers 0 (ms.flatMap fun m => m.connector ++ m.tokens d) =
      ms.map UnionMember.modifier := by
  induction ms with
  | nil => rfl
  | cons m ms ih =>
    obtain ⟨hm, hms⟩ := List.forall_mem_cons.mp h
    obtain ⟨ks, hks⟩ := m.outline_tokens d
    rw [List.flatMap_cons, unionModifiers_connector hm hks, ih hms, List.map_cons]

end UnionMember

/-! ## Unions -/

namespace Union

/-- The tokens of a union are those of its members, each but the first behind its connector. -/
theorem tokens_cons (m : UnionMember) (ms : List UnionMember) :
    Union.tokens d ⟨m :: ms⟩ =
      m.tokens d ++ ms.flatMap fun m' => m'.connector ++ m'.tokens d := by
  show words (m.tokens d :: ms.flatMap (UnionMember.words d)) = _
  rw [words, intercalate_cons, List.flatMap_assoc]
  congr 2
  funext m'
  by_cases hm : m'.modifier = .all <;> simp [UnionMember.words, UnionMember.connector, wordIf, hm]

variable {u : Union}

/-- A union of members that order and limit no rows orders and limits no rows itself. -/
theorem unlimited_tokens (h : ∀ m ∈ u.members, Unlimited (m.tokens d)) :
    Unlimited (u.tokens d) := by
  obtain ⟨members⟩ := u
  cases members with
  | nil => exact sealed_nil.unlimited
  | cons m ms =>
    obtain ⟨hm, hms⟩ := List.forall_mem_cons.mp h
    rw [tokens_cons]
    exact hm.append (Unlimited.flatMap fun m' hm' =>
      m'.sealed_connector.unlimited.append (hms m' hm'))

/-- The connectors of a union are the modifiers of its members but the first. -/
theorem unionModifiers_tokens (h : ∀ m ∈ u.members, Unconnected (m.tokens d)) :
    unionModifiers 0 (u.tokens d) = u.members.tail.map UnionMember.modifier := by
  obtain ⟨members⟩ := u
  cases members with
  | nil => rfl
  | cons m ms =>
    obtain ⟨hm, hms⟩ := List.forall_mem_cons.mp h
    obtain ⟨ks, hks⟩ := m.outline_tokens d
    rw [tokens_cons, hks.unionModifiers_append hm.union,
      UnionMember.unionModifiers_flatMap hms, List.tail_cons]

/-- In the tokens of a valid union, nothing outside of parentheses orders or limits rows, so the
limit of a member never binds to the union. There is one connector for each member but the first,
and it has ALL exactly if that member keeps all rows. -/
theorem connectors_of_render {ts : List Token} (hvalid : (Statement.union u).validate = .ok ())
    (h : (Statement.union u).render d = .ok ts) :
    (∀ k ∈ Keyword.rowClauses, keyword k ∉ topLevel 0 ts) ∧
      (topLevel 0 ts).count (keyword .UNION) = u.members.length - 1 ∧
      unionModifiers 0 ts = u.members.tail.map UnionMember.modifier := by
  have hviolations := Statement.validate_eq_ok_iff.mp hvalid
  have hobstacles : ∀ m ∈ u.members, (m.query.forDialect d).obstacles d = [] :=
    List.flatMap_eq_nil_iff.mp (Statement.obstacles_eq_nil_of_render h)
  obtain ⟨hrule, hroots⟩ := (Statement.violations_eq_nil_iff _).mp hviolations
  have hqueries : ∀ m ∈ u.members, m.query.violations = [] := fun m hm =>
    hroots (.select m.query) (List.mem_map.mpr ⟨m, hm, rfl⟩)
  have hunlimited : Unlimited (u.tokens d) := unlimited_tokens fun m hm =>
    UnionMember.unlimited_tokens (hrule.unordered m hm).1 (hrule.unordered m hm).2
  have hmodifiers : unionModifiers 0 (u.tokens d) = u.members.tail.map UnionMember.modifier :=
    unionModifiers_tokens fun m hm =>
      UnionMember.unconnected_tokens (hqueries m hm) (hobstacles m hm)
  obtain rfl : u.tokens d = ts := Statement.tokens_eq_of_render d h
  refine ⟨fun k hk => hunlimited.notMem_topLevel hk, ?_, hmodifiers⟩
  rw [← length_unionModifiers, hmodifiers, List.length_map, List.length_tail]

/-- The first rows of two tables. -/
def firstRows : Union where
  members := [⟨{ Select.empty.withBase (.table "orders") with top := some 1 }, .all⟩,
    ⟨{ Select.empty.withBase (.table "invoices") with top := some 2 }, .all⟩,
    ⟨Select.empty.withBase (.table "refunds"), .distinct⟩]

/-- The limits of both tables are in parentheses where they are trailing, and the first member has no
connector in spite of its modifier. -/
theorem connectors_of_render_firstRows :
    (Statement.union firstRows).validate = .ok () ∧
    ∃ ts, (Statement.union firstRows).render .postgres = .ok ts ∧ keyword .LIMIT ∈ ts ∧
      keyword .LIMIT ∉ topLevel 0 ts ∧ (topLevel 0 ts).count (keyword .UNION) = 2 ∧
      unionModifiers 0 ts = [.all, .distinct] := by
  have hvalid : (Statement.union firstRows).validate = .ok () := rfl
  have hrender : (Statement.union firstRows).render .postgres =
      .ok (firstRows.tokens .postgres) := rfl
  obtain ⟨hlimits, hcount, hmodifiers⟩ := connectors_of_render hvalid hrender
  exact ⟨hvalid, _, hrender, by decide, hlimits .LIMIT (by decide), hcount, hmodifiers⟩

end Union

end SqlTree
