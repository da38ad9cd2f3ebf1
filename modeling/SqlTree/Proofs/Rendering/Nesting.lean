import SqlTree.Token.Query

/-!
# Parentheses and the clauses outside of them

A list of tokens is balanced if its parentheses pair up. The tokens of a query at depth 0 show which
clauses it has; those of everything that stands inside a query have to be hidden by parentheses.

* `Token.Balanced`, `Token.topLevel`: what is said about a list of tokens;
* `Token.Outline`: the same built up along the list, as parts are put together.

Results:
* `Token.Outline.balanced`, `Token.Outline.topClauses_eq`: an outline says how a list of tokens is
  nested.
* `Token.Sealed.words`, `Token.Sealed.parens` and others: parts put together show no clause.
* `Formula.sealed_tokens`: a formula shows no clause if its two dates show none.
-/

namespace SqlTree

/-- The keywords that begin a clause of a query, in their order. -/
def Keyword.clauses : List Keyword :=
  [SELECT, FROM, WHERE, GROUP_BY, HAVING, ORDER_BY, LIMIT, OFFSET, FETCH]

namespace Token

/-! ## Nesting -/

/-- As many parentheses are closed as are opened, and in front of any position no more. -/
structure Balanced (ts : List Token) : Prop where
  count_le : ∀ p, p <+: ts → p.count (symbol .closeParen) ≤ p.count (symbol .openParen)
  count_eq : ts.count (symbol .closeParen) = ts.count (symbol .openParen)

/-- The tokens at depth 0 of a list that begins at a given depth, without the parentheses. -/
def topLevel (depth : Nat) : List Token → List Token
  | [] => []
  | t :: ts =>
    if t = symbol .openParen then topLevel (depth + 1) ts
    else if t = symbol .closeParen then topLevel (depth - 1) ts
    else if depth = 0 then t :: topLevel depth ts
    else topLevel depth ts

/-- The keyword of a token that begins a clause. -/
def clause? : Token → Option Keyword
  | keyword k => if k ∈ Keyword.clauses then some k else none
  | _ => none

/-- The keywords that begin a clause at depth 0. -/
def topClauses (ts : List Token) : List Keyword := (topLevel 0 ts).filterMap clause?

/-- The parentheses of a list pair up, and these are the clauses at depth 0. -/
inductive Outline : List Token → List Keyword → Prop where
  | nil : Outline [] []
  | token {t : Token} {ts : List Token} {ks : List Keyword} (hopen : t ≠ symbol .openParen)
      (hclose : t ≠ symbol .closeParen) (h : Outline ts ks) :
      Outline (t :: ts) ((clause? t).toList ++ ks)
  | group {part ts : List Token} {inner ks : List Keyword} (hpart : Outline part inner)
      (h : Outline ts ks) : Outline (parens part ++ ts) ks

theorem parens_append (part ts : List Token) :
    parens part ++ ts = symbol .openParen :: (part ++ symbol .closeParen :: ts) := by
  simp [parens]

namespace Outline

variable {ts us : List Token} {ks ls : List Keyword}

theorem append (h : Outline ts ks) (h' : Outline us ls) : Outline (ts ++ us) (ks ++ ls) := by
  induction h with
  | nil => exact h'
  | token hopen hclose _ ih =>
    rw [List.cons_append, List.append_assoc]
    exact .token hopen hclose ih
  | group hpart _ _ ih =>
    rw [List.append_assoc]
    exact .group hpart ih

theorem parens (h : Outline ts ks) : Outline (Token.parens ts) [] := by
  rw [← List.append_nil (Token.parens ts)]
  exact .group h .nil

theorem words_append_of_ne_nil {ps qs : List (List Token)} (hp : ps ≠ []) (hq : qs ≠ []) :
    words (ps ++ qs) = words ps ++ space :: words qs := by
  induction ps with
  | nil => exact absurd rfl hp
  | cons p ps ih =>
    cases ps with
    | nil =>
      obtain ⟨q, qs, rfl⟩ := List.exists_cons_of_ne_nil hq
      simp [words_cons_cons]
    | cons p' ps =>
      have ih := ih (List.cons_ne_nil _ _)
      rw [List.cons_append] at ih
      rw [List.cons_append, List.cons_append, words_cons_cons, ih, words_cons_cons,
        List.append_assoc, List.cons_append]

/-- The clauses of words are those of each word. -/
theorem words_append {ps qs : List (List Token)} (h : Outline (words ps) ks)
    (h' : Outline (words qs) ls) : Outline (words (ps ++ qs)) (ks ++ ls) := by
  by_cases hp : ps = []
  · subst hp
    exact h.append h'
  · by_cases hq : qs = []
    · subst hq
      rw [List.append_nil, ← List.append_nil (words ps)]
      exact h.append h'
    · rw [words_append_of_ne_nil hp hq]
      exact h.append (.token (by decide) (by decide) h')

/-! ## What an outline says -/

theorem count_eq (h : Outline ts ks) :
    ts.count (symbol .closeParen) = ts.count (symbol .openParen) := by
  induction h with
  | nil => rfl
  | token hopen hclose _ ih => simpa [List.count_cons, hopen, hclose] using ih
  | group _ _ ihpart ih =>
    simp [parens_append, ihpart, ih]
    omega

theorem count_take_le (h : Outline ts ks) (n : Nat) :
    (ts.take n).count (symbol .closeParen) ≤ (ts.take n).count (symbol .openParen) := by
  induction h generalizing n with
  | nil => simp
  | token hopen hclose _ ih =>
    cases n with
    | zero => simp
    | succ n => simpa [List.count_cons, hopen, hclose] using ih n
  | @group part ts inner ks hpart _ ihpart ih =>
    cases n with
    | zero => simp
    | succ n =>
      have hinside := ihpart n
      have hafter := ih (n - part.length - 1)
      have hpart := hpart.count_eq
      rw [parens_append, List.take_succ_cons, List.take_append]
      cases hn : n - part.length with
      | zero =>
        simp
        omega
      | succ m =>
        rw [hn] at hafter
        rw [List.take_of_length_le (by omega : part.length ≤ n)]
        simp [hpart] at hafter ⊢
        omega

theorem balanced (h : Outline ts ks) : Balanced ts where
  count_le p hp := by
    rw [List.prefix_iff_eq_take.mp hp]
    exact h.count_take_le p.length
  count_eq := h.count_eq

theorem topLevel_append (h : Outline ts ks) (depth : Nat) (us : List Token) :
    (topLevel depth (ts ++ us)).filterMap clause? =
      (if depth = 0 then ks else []) ++ (topLevel depth us).filterMap clause? := by
  induction h generalizing depth us with
  | nil => simp
  | @token t ts ks hopen hclose _ ih =>
    rw [List.cons_append, topLevel, if_neg hopen, if_neg hclose]
    split
    · rename_i hdepth
      rw [List.filterMap_cons, ih, if_pos hdepth]
      cases clause? t <;> rfl
    · rename_i hdepth
      rw [ih, if_neg hdepth]
  | @group part ts inner ks _ _ ihpart ih =>
    have hopen : topLevel depth (Token.parens part ++ ts ++ us) =
        topLevel (depth + 1) (part ++ symbol .closeParen :: (ts ++ us)) := by
      simp [parens_append, topLevel]
    have hclose : topLevel (depth + 1) (symbol .closeParen :: (ts ++ us)) =
        topLevel depth (ts ++ us) := by
      simp [topLevel]
    rw [hopen, ihpart, if_neg (Nat.succ_ne_zero depth), hclose, List.nil_append, ih]

theorem topClauses_eq (h : Outline ts ks) : topClauses ts = ks := by
  simpa [topClauses, topLevel] using h.topLevel_append 0 []

end Outline

/-! ## Lists without a clause at depth 0 -/

/-- The parentheses of a list pair up, and no clause begins outside of them. -/
def Sealed (ts : List Token) : Prop := Outline ts []

@[simp] theorem sealed_nil : Sealed [] := .nil

theorem Outline.of_cons {t : Token} {ts us : List Token} {ks : List Keyword} (h : Outline us ks)
    (hus : us = t :: ts) (hopen : t ≠ symbol .openParen) :
    ∃ ls, Outline ts ls ∧ ks = (clause? t).toList ++ ls := by
  cases h with
  | nil => simp at hus
  | token _ _ h =>
    obtain ⟨rfl, rfl⟩ := List.cons_eq_cons.mp hus
    exact ⟨_, h, rfl⟩
  | group _ _ =>
    rw [parens_append] at hus
    exact absurd (List.cons_eq_cons.mp hus).1.symm hopen

/-- A token that is neither a parenthesis nor the beginning of a clause makes no difference. -/
theorem sealed_cons_iff {t : Token} {ts : List Token} (hopen : t ≠ symbol .openParen)
    (hclose : t ≠ symbol .closeParen) (hclause : clause? t = none) :
    Sealed (t :: ts) ↔ Sealed ts := by
  constructor
  · intro h
    obtain ⟨ls, hts, hls⟩ := Outline.of_cons h rfl hopen
    obtain rfl : [] = ls := by simpa [hclause] using hls
    exact hts
  · intro h
    have := Outline.token hopen hclose h
    rwa [hclause] at this

section Atoms

variable {ts : List Token}

@[simp] theorem sealed_keyword_cons {k : Keyword} (hk : k ∉ Keyword.clauses) :
    Sealed (keyword k :: ts) ↔ Sealed ts :=
  sealed_cons_iff (by simp) (by simp) (if_neg hk)

@[simp] theorem sealed_symbol_cons {s : Symbol} (hopen : s ≠ .openParen)
    (hclose : s ≠ .closeParen) : Sealed (symbol s :: ts) ↔ Sealed ts :=
  sealed_cons_iff (by simp [hopen]) (by simp [hclose]) rfl

@[simp] theorem sealed_space_cons : Sealed (space :: ts) ↔ Sealed ts :=
  sealed_cons_iff (by simp) (by simp) rfl

@[simp] theorem sealed_ident_cons (name : String) : Sealed (ident name :: ts) ↔ Sealed ts :=
  sealed_cons_iff (by simp) (by simp) rfl

@[simp] theorem sealed_qualified_cons (namespaceName : Option String) (name : String) :
    Sealed (qualified namespaceName name :: ts) ↔ Sealed ts :=
  sealed_cons_iff (by simp) (by simp) rfl

@[simp] theorem sealed_literal_cons (c : Constant) : Sealed (literal c :: ts) ↔ Sealed ts :=
  sealed_cons_iff (by simp) (by simp) rfl

@[simp] theorem sealed_null_cons : Sealed (Token.null :: ts) ↔ Sealed ts :=
  sealed_cons_iff (by simp) (by simp) rfl

@[simp] theorem sealed_parameter_cons (name : String) :
    Sealed (parameter name :: ts) ↔ Sealed ts :=
  sealed_cons_iff (by simp) (by simp) rfl

@[simp] theorem sealed_function_cons (name : String) :
    Sealed (function name :: ts) ↔ Sealed ts :=
  sealed_cons_iff (by simp) (by simp) rfl

@[simp] theorem sealed_raw_cons (sql : String) : Sealed (raw sql :: ts) ↔ Sealed ts :=
  sealed_cons_iff (by simp) (by simp) rfl

end Atoms

theorem Sealed.append {ts us : List Token} (h : Sealed ts) (h' : Sealed us) : Sealed (ts ++ us) :=
  Outline.append h h'

theorem intercalate_cons {α : Type} (separator part : List α) (parts : List (List α)) :
    separator.intercalate (part :: parts) = part ++ parts.flatMap (separator ++ ·) := by
  induction parts generalizing part with
  | nil => simp [List.intercalate]
  | cons next parts ih =>
    have hnext : separator.intercalate (part :: next :: parts) =
        part ++ (separator ++ separator.intercalate (next :: parts)) := by
      simp [List.intercalate]
    rw [hnext, ih, List.flatMap_cons, List.append_assoc]

theorem Sealed.intercalate {separator : List Token} {parts : List (List Token)}
    (hseparator : Sealed separator) (h : ∀ p ∈ parts, Sealed p) :
    Sealed (separator.intercalate parts) := by
  induction parts with
  | nil => exact sealed_nil
  | cons p ps ih =>
    obtain ⟨hp, hps⟩ := List.forall_mem_cons.mp h
    cases ps with
    | nil => simpa [List.intercalate] using hp
    | cons q qs =>
      have hjoined : separator.intercalate (p :: q :: qs) =
          p ++ separator ++ separator.intercalate (q :: qs) := by
        simp [List.intercalate]
      rw [hjoined]
      exact (hp.append hseparator).append (ih hps)

@[simp] theorem sealed_words {parts : List (List Token)} (h : ∀ p ∈ parts, Sealed p) :
    Sealed (words parts) :=
  Sealed.intercalate (by simp) h

@[simp] theorem sealed_commaList {parts : List (List Token)} (h : ∀ p ∈ parts, Sealed p) :
    Sealed (commaList parts) :=
  Sealed.intercalate (by simp) h

@[simp] theorem sealed_parens {part : List Token} (h : Sealed part) : Sealed (parens part) :=
  Outline.parens h

@[simp] theorem sealed_call {name : String} {args : List (List Token)}
    (h : ∀ p ∈ args, Sealed p) : Sealed (call name args) := by
  rw [call, sealed_function_cons]
  exact sealed_parens (sealed_commaList h)

@[simp] theorem sealed_operation {left right : List Token} {op : Token} (hleft : Sealed left)
    (hop : Sealed [op]) (hright : Sealed right) : Sealed (operation left op right) := by
  simp [operation, hleft, hop, hright]

/-- A clause begins with its keyword. -/
theorem outline_clause {k : Keyword} (hk : k ∈ Keyword.clauses) {parts : List (List Token)}
    (h : ∀ p ∈ parts, Sealed p) : Outline (words ([keyword k] :: parts)) [k] := by
  have hkeyword : Outline (words [[keyword k]]) [k] := by
    rw [words_singleton]
    have := Outline.token (t := keyword k) (by simp) (by simp) .nil
    rwa [clause?, if_pos hk] at this
  exact hkeyword.words_append (sealed_words h)

theorem sealed_of_mem_wordIf {condition : Bool} {k : Keyword} (hk : k ∉ Keyword.clauses)
    {p : List Token} (h : p ∈ wordIf condition k) : Sealed p := by
  cases condition with
  | false => simp [wordIf] at h
  | true =>
    obtain rfl : p = [keyword k] := by simpa [wordIf] using h
    simp [hk]

@[simp] theorem sealed_field (table : Option String) (name : String) :
    Sealed (field table name) := by
  cases table <;> simp [field]

@[simp] theorem sealed_renamed {part : List Token} {withAs : Bool} {aliasName : Option String}
    (h : Sealed part) : Sealed (renamed part withAs aliasName) := by
  cases aliasName with
  | none => exact h
  | some a =>
    refine sealed_words fun p hp => ?_
    simp only [List.cons_append, List.mem_cons, List.mem_append, List.not_mem_nil,
      or_false] at hp
    rcases hp with rfl | hp | rfl
    · exact h
    · exact sealed_of_mem_wordIf (by decide) hp
    · simp

theorem sealed_fieldEquations (left right : String) (pairs : List (String × String)) :
    Sealed (fieldEquations left right pairs) := by
  refine Sealed.intercalate (by simp [Keyword.clauses]) fun p hp => ?_
  obtain ⟨⟨l, r⟩, -, rfl⟩ := List.mem_map.mp hp
  simp

theorem sealed_inList {part : List Token} (h : Sealed part) (values : List Constant)
    (negated : Bool) : Sealed (inList part values negated) := by
  unfold inList
  split
  · simp [integer]
  · have hvalues : Sealed (commaList (values.map fun c => [literal c])) := by simp
    refine sealed_words fun p hp => ?_
    simp only [List.cons_append, List.mem_cons, List.mem_append, List.not_mem_nil,
      or_false] at hp
    rcases hp with rfl | hp | rfl | rfl
    · exact h
    · exact sealed_of_mem_wordIf (by decide) hp
    · simp [Keyword.clauses]
    · exact sealed_parens hvalues

theorem sealed_bitAnd (d : Dialect) {left right : List Token} (hleft : Sealed left)
    (hright : Sealed right) : Sealed (d.bitAnd left right) := by
  unfold Dialect.bitAnd
  split <;> simp [hleft, hright]

@[simp] theorem sealed_sortKey (k : SortKey) : Sealed k.tokens := by
  cases h : k.direction <;>
    simp [SortKey.tokens, h, SortDirection.keyword, Keyword.clauses]

@[simp] theorem sealed_groupKey (k : GroupKey) : Sealed k.tokens := sealed_field k.table k.field

end Token

/-! ## Formulas -/

namespace Formula

open Token

variable {s f : List Token}

mutual

/-- A formula shows no clause if its two dates show none. -/
theorem sealed_tokens (hs : Sealed s) (hf : Sealed f) : ∀ x : Formula, Sealed (x.tokens s f)
  | start => hs
  | finish => hf
  | integer _ | text _ | word _ => by simp [tokens, Token.integer, Token.string]
  | call name args => by
    rw [tokens]
    exact sealed_call (sealed_of_mem_tokensOfAll hs hf args)
  | operation left op right => by
    rw [tokens]
    refine sealed_operation (sealed_tokens hs hf left) ?_ (sealed_tokens hs hf right)
    cases op <;> simp [FormulaOp.token]
  | extract part date => by
    have hfrom : Outline (words [[keyword .FROM], date.tokens s f]) [.FROM] :=
      outline_clause (by decide) (by simp [sealed_tokens hs hf date])
    have hpart : Outline (words [[Token.raw part]]) [] := by
      rw [words_singleton]
      exact (sealed_raw_cons part).mpr sealed_nil
    rw [tokens, sealed_function_cons]
    exact (hpart.words_append hfrom).parens
  | cast value type => by
    rw [tokens, sealed_function_cons]
    exact sealed_parens (sealed_words (by simp [Keyword.clauses, sealed_tokens hs hf value]))

theorem sealed_of_mem_tokensOfAll (hs : Sealed s) (hf : Sealed f) :
    ∀ xs : List Formula, ∀ p ∈ tokensOfAll s f xs, Sealed p
  | [], _, hp => by simp [tokensOfAll] at hp
  | x :: xs, p, hp => by
    rcases List.mem_cons.mp hp with rfl | hp
    · exact sealed_tokens hs hf x
    · exact sealed_of_mem_tokensOfAll hs hf xs p hp

end

end Formula

end SqlTree
