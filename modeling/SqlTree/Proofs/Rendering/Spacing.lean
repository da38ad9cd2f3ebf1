import Mathlib.Data.List.Chain
import SqlTree.Proofs.Rendering.ValidTokens

/-!
# Spaces between tokens

A space stands between two parts of a text, never beside another space, inside of a parenthesis or
in front of a comma. If something were written as nothing, the space that separates it from its
neighbour would be left over, and the keyword in front of it would lead nothing. The rules of valid
statements keep everything that is written from being empty.

* `Token.WellSpaced`: what is said about a list of tokens;
* `Token.Fits`: whether a token may stand directly behind another one;
* `Token.Spaced`: all neighbours fit, and the ends do so between spaces and parentheses.

Results:
* `Token.composed_spaced`: parts that are put together stay spaced.
* `Token.Spaced.wellSpaced`: spaced tokens are well spaced.
* `Node.tokensHave_spaced`: the tokens of a valid node that a dialect can express are spaced.
* `Statement.wellSpaced_of_render`: so are the tokens of a valid statement that renders, and those
  of everything that is written in it.
-/

namespace SqlTree

namespace Token

/-! ## Neighbours -/

/-- A list of tokens is not empty, has spaces only between its parts, and has something behind each
keyword that leads what is behind it. -/
structure WellSpaced (ts : List Token) : Prop where
  ne_nil : ts ≠ []
  head? : ts.head? ≠ some space
  getLast? : ts.getLast? ≠ some space
  twoSpaces : ¬[space, space] <:+: ts
  afterOpenParen : ¬[symbol .openParen, space] <:+: ts
  beforeCloseParen : ¬[space, symbol .closeParen] <:+: ts
  beforeComma : ¬[space, symbol .comma] <:+: ts
  leads : ∀ before k after, ts = before ++ keyword k :: after → k ∉ Keyword.closing →
    ∃ t rest, after = space :: t :: rest ∧ t ∉ [space, symbol .comma, symbol .closeParen]

/-- Whether a token may begin a part. -/
def opens (t : Token) : Bool := t ∉ [space, symbol .comma, symbol .closeParen]

/-- Whether a token may end a part. -/
def closes : Token → Bool
  | space | symbol .openParen => false
  | keyword k => Keyword.closing.contains k
  | _ => true

/-- A token may stand directly behind another one. -/
def Fits : Token → Token → Prop
  | space, u => u.opens = true
  | symbol .openParen, u => u ≠ space
  | keyword k, u => k ∈ Keyword.closing ∨ u = space
  | _, _ => True

/-- All neighbours in a list of tokens fit; it begins like a part and ends like one. -/
structure Spaced (ts : List Token) : Prop where
  chain : ts.IsChain Fits
  head : ∃ t us, ts = t :: us ∧ t.opens = true
  last : ∃ us t, ts = us ++ [t] ∧ t.closes = true

theorem fits_of_closes {t : Token} (h : t.closes = true) (u : Token) : Fits t u := by
  cases t with
  | symbol s => cases s <;> trivial
  | keyword k => exact .inl (by simpa [closes] using h)
  | space => contradiction
  | _ => trivial

theorem fits_openParen {u : Token} (h : u.opens = true) : Fits (symbol .openParen) u := by
  rintro rfl
  contradiction

/-- A list that begins like a part may stand behind what fits everything that does. -/
theorem chain_cons {t : Token} {ts : List Token} (hts : ts.IsChain Fits)
    (hhead : ∃ u us, ts = u :: us ∧ u.opens = true) (ht : ∀ u, u.opens = true → Fits t u) :
    (t :: ts).IsChain Fits := by
  obtain ⟨u, us, rfl, hu⟩ := hhead
  exact hts.cons_cons (ht u hu)

/-! ## Putting parts together -/

namespace Spaced

variable {ts us : List Token}

theorem singleton {t : Token} (hopens : t.opens = true) (hcloses : t.closes = true) :
    Spaced [t] where
  chain := .singleton t
  head := ⟨t, [], rfl, hopens⟩
  last := ⟨[], t, rfl, hcloses⟩

/-- Anything may stand behind a part. -/
theorem chain_append (h : Spaced ts) (hus : us.IsChain Fits) : (ts ++ us).IsChain Fits := by
  obtain ⟨vs, t, hts, ht⟩ := h.last
  refine h.chain.append hus fun x hx y _ => ?_
  obtain rfl : t = x := by simpa [hts] using hx
  exact fits_of_closes ht y

/-- A space may stand in front of a part. -/
theorem chain_space (h : Spaced ts) : (space :: ts).IsChain Fits :=
  chain_cons h.chain h.head fun _ hu => hu

theorem head_append (h : Spaced ts) (us : List Token) :
    ∃ t vs, ts ++ us = t :: vs ∧ t.opens = true := by
  obtain ⟨t, vs, rfl, ht⟩ := h.head
  exact ⟨t, vs ++ us, rfl, ht⟩

theorem last_append (h : Spaced us) (ts : List Token) :
    ∃ vs t, ts ++ us = vs ++ [t] ∧ t.closes = true := by
  obtain ⟨vs, t, rfl, ht⟩ := h.last
  exact ⟨ts ++ vs, t, by rw [List.append_assoc], ht⟩

/-- A keyword may lead a part. -/
theorem led (k : Keyword) (h : Spaced ts) : Spaced (keyword k :: space :: ts) where
  chain := h.chain_space.cons_cons (.inr rfl)
  head := ⟨_, _, rfl, rfl⟩
  last := h.last_append [keyword k, space]

end Spaced

/-- Parts that are put together stay spaced. -/
theorem composed_spaced : Composed Spaced where
  part := by
    intro t ht
    cases t with
    | symbol s => cases s <;> first | exact .singleton rfl rfl | contradiction
    | keyword k => exact .singleton rfl (Bool.and_eq_true _ _ |>.mp ht).2
    | space => contradiction
    | _ => exact .singleton rfl rfl
  led _ _ h := h.led _
  append hts hus := ⟨hts.chain_append hus.chain, hts.head_append _, hus.last_append _⟩
  spaced hts hus :=
    ⟨hts.chain_append hus.chain_space, hts.head_append _, by
      rw [List.append_cons]
      exact hus.last_append _⟩
  listed hts hus :=
    ⟨hts.chain_append (hus.chain_space.cons_cons trivial),
      hts.head_append _, by
      rw [List.append_cons, List.append_cons]
      exact hus.last_append _⟩
  parens h :=
    ⟨chain_cons (h.chain_append (.singleton _)) (h.head_append _) fun _ => fits_openParen,
      ⟨_, _, rfl, rfl⟩, ⟨_, symbol .closeParen, rfl, rfl⟩⟩
  noParts := ⟨.cons_cons nofun (.singleton _), ⟨_, _, rfl, rfl⟩, ⟨_, symbol .closeParen, rfl, rfl⟩⟩

/-! ## What spaced tokens look like -/

namespace Spaced

variable {ts : List Token}

theorem fits_of_infix (h : Spaced ts) {t u : Token} (hpair : [t, u] <:+: ts) : Fits t u := by
  have hchain : [t, u].IsChain Fits := List.IsChain.infix h.chain hpair
  exact List.isChain_pair.mp hchain

theorem notMem_of_infix (h : Spaced ts) {t : Token} (hpair : [space, t] <:+: ts) :
    t ∉ [space, symbol .comma, symbol .closeParen] :=
  of_decide_eq_true (h.fits_of_infix hpair)

/-- A keyword that may not be last leads a part. -/
theorem exists_led (h : Spaced ts) {before after : List Token} {k : Keyword}
    (hts : ts = before ++ keyword k :: after) (hk : k ∉ Keyword.closing) :
    ∃ t rest, after = space :: t :: rest ∧
      t ∉ [space, symbol .comma, symbol .closeParen] := by
  obtain ⟨us, t, hlast, ht⟩ := h.last
  have hclosing : ¬(keyword k).closes = true := by simpa [closes] using hk
  cases after with
  | nil =>
    obtain ⟨-, hkey⟩ := List.append_inj' (hts.symm.trans hlast) rfl
    obtain rfl : keyword k = t := List.singleton_injective hkey
    exact absurd ht hclosing
  | cons u after =>
    have hu : [keyword k, u] <:+: ts := ⟨before, after, by simp [hts]⟩
    obtain rfl : u = space := (h.fits_of_infix hu).resolve_left hk
    cases after with
    | nil =>
      have hend : us ++ [t] = (before ++ [keyword k]) ++ [space] := by simp [← hlast, hts]
      obtain rfl : t = space := List.singleton_injective (List.append_inj' hend rfl).2
      contradiction
    | cons v after =>
      have hv : [space, v] <:+: ts := ⟨before ++ [keyword k], after, by simp [hts]⟩
      exact ⟨v, after, rfl, h.notMem_of_infix hv⟩

/-- Spaced tokens are well spaced. -/
theorem wellSpaced (h : Spaced ts) : WellSpaced ts where
  ne_nil := by
    obtain ⟨t, us, rfl, -⟩ := h.head
    exact List.cons_ne_nil t us
  head? := by
    obtain ⟨t, us, rfl, ht⟩ := h.head
    rintro ⟨⟩
    contradiction
  getLast? := by
    obtain ⟨us, t, rfl, ht⟩ := h.last
    rw [List.getLast?_concat]
    rintro ⟨⟩
    contradiction
  twoSpaces hpair := h.notMem_of_infix hpair (by decide)
  afterOpenParen hpair := h.fits_of_infix hpair rfl
  beforeCloseParen hpair := h.notMem_of_infix hpair (by decide)
  beforeComma hpair := h.notMem_of_infix hpair (by decide)
  leads _ _ _ hts hk := h.exists_led hts hk

end Spaced

theorem placed_spaced (k : Keyword) : Placed Spaced k := by
  unfold Placed
  split
  · rename_i hk
    exact .singleton rfl hk
  · exact fun _ h => h.led k

end Token

open Token

/-! ## Valid statements -/

variable {d : Dialect}

namespace Node

/-- The tokens of a valid node without obstacles are spaced. -/
theorem tokensHave_spaced {n : Node} (hvalid : n.violations = []) (hobstacles : n.obstacles d = [])
    (hpredicate : ∀ c, n = condition c → c.HasPredicate) : n.TokensHave d Spaced :=
  tokensHave_of_valid composed_spaced (fun k _ => placed_spaced k) (.singleton rfl rfl) hvalid
    hobstacles hpredicate

/-- The tokens of everything that is written in a valid node without obstacles are spaced. -/
theorem Writes.tokensHave_spaced {n m : Node} (h : n.Writes m) (hvalid : n.violations = [])
    (hobstacles : n.obstacles d = []) (hpredicate : ∀ c, n = condition c → c.HasPredicate) :
    m.TokensHave d Spaced := by
  induction h with
  | self n => exact Node.tokensHave_spaced hvalid hobstacles hpredicate
  | @descend n c m hc _ ih =>
    refine ih ?_ ?_ ?_
    · exact violations_of_mem_children hvalid (written_subset_children n hc)
    · exact List.subset_nil.mp (hobstacles ▸ obstacles_subset_of_mem_written hc)
    · rintro g rfl
      exact hasPredicate_of_mem_written (n.violations_eq_nil_iff.mp hvalid).1 hc

theorem TokensHave.imp {Q R : List Token → Prop} (hQR : ∀ ts, Q ts → R ts) {n : Node}
    (h : n.TokensHave d Q) : n.TokensHave d R := by
  cases n with
  | tableRef t => exact fun tableSpace => hQR _ (h tableSpace)
  | fromClause f => exact fun tableSpace => hQR _ (h tableSpace)
  | _ => exact hQR _ h

theorem eq_condition_of_forDialect {n : Node} {c : Condition}
    (h : n.forDialect d = condition c) : ∃ g, n = condition g ∧ g.forDialect d = c := by
  cases n with
  | condition g => exact ⟨g, rfl, condition.inj (forDialect_condition g ▸ h)⟩
  | _ =>
    unfold forDialect at h
    split at h <;> contradiction

end Node

namespace Statement

variable {s : Statement}

/-- A valid statement has members in its union and fields in its assignments. -/
theorem filled_of_keepsRule (h : s.KeepsRule) : s.Filled := by
  cases s with
  | select q | delete x => trivial
  | union u => exact h.hasMembers
  | insert i | update u => exact h.hasFields
  | bulkInsert b =>
    obtain ⟨first, hhead, hrows⟩ := h
    obtain ⟨rest, hcons⟩ := List.head?_eq_some_iff.mp hhead
    exact ⟨first, rest, hcons, (hrows first (hcons ▸ List.mem_cons_self)).setsFields.hasFields⟩

/-- The tokens of a valid statement that renders are well spaced, and so are those of every tree
that is written in it: nothing is written as nothing, so no keyword has nothing to lead. -/
theorem wellSpaced_of_render {ts : List Token} (hvalid : s.validate = .ok ())
    (h : s.render d = .ok ts) :
    WellSpaced ts ∧
    ∀ n ∈ s.written, (∀ c, n = .condition c → c.isEmpty = false) →
      ∀ m, (n.forDialect d).Writes m → m.TokensHave d WellSpaced := by
  have hviolations : s.violations = [] := validate_eq_ok_iff.mp hvalid
  have hobstacles : s.obstacles d = [] := obstacles_eq_nil_of_render h
  rw [obstacles_eq_flatMap] at hobstacles
  have hspaced : ∀ n ∈ s.written, (∀ c, n = .condition c → c.isEmpty = false) →
      ∀ m, (n.forDialect d).Writes m → m.TokensHave d Spaced := by
    intro n hn hfull m hm
    refine hm.tokensHave_spaced (violations_of_mem_written hviolations hn)
      (List.flatMap_eq_nil_iff.mp hobstacles n hn) fun c hc => ?_
    obtain ⟨c, rfl, rfl⟩ := Node.eq_condition_of_forDialect hc
    rw [Condition.hasPredicate_forDialect, ← Condition.isEmpty_eq_false_iff]
    exact hfull c rfl
  have htokens : Spaced (s.tokens d) := by
    refine composed_tokens_of_written composed_spaced (fun k _ _ hk => hk.led k)
      (.inr (filled_of_keepsRule (s.violations_eq_nil_iff.mp hviolations).1))
      (fun _ => .singleton rfl rfl) fun n hn hfull => ?_
    exact hspaced n hn hfull _ (.self _)
  rw [tokens_eq_of_render d h] at htokens
  exact ⟨htokens.wellSpaced, fun n hn hfull m hm =>
    (hspaced n hn hfull m hm).imp fun _ => Spaced.wellSpaced⟩

/-- A deletion of the orders that a page shows. -/
def deleteShown : Statement :=
  .delete
    { table := "orders"
      filter := .all [.inSubquery (.column "id") (.query .secondPage) false] }

/-- The page in the condition of a deletion becomes blocks. -/
theorem wellSpaced_of_render_deleteShown :
    ∃ ts, deleteShown.render .oracle = .ok ts ∧ keyword .WHERE ∈ ts ∧ WellSpaced ts := by
  have hvalid : deleteShown.validate = .ok () := validate_eq_ok_iff.mpr (by decide +kernel)
  have hrender : deleteShown.render .oracle = .ok (deleteShown.tokens .oracle) := by
    rw [render_eq, show deleteShown.obstacles .oracle = [] by decide +kernel]
  exact ⟨_, hrender, by decide +kernel, (wellSpaced_of_render hvalid hrender).1⟩

end Statement

end SqlTree
