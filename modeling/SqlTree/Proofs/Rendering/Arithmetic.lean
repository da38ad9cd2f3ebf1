import SqlTree.Proofs.Rendering.Pieces
import SqlTree.Proofs.Tree.Obstacles
import SqlTree.Rendering

/-!
# Arithmetic is read in one way

Operations are written in parentheses, and so are the arguments of functions. A list of tokens
therefore comes from at most one expression of values, functions and operations: where an operand or
an argument ends can be seen from what follows it. The only token that could go on behind a whole
expression is the dot between a table and its field.

* `Expr.IsArithmetic`: expressions of values, functions and operations;
* `Expr.Readable`: an expression and what stands behind it can be told apart;
* `Token.content`: what a token holds, where a date at midnight has lost its time.

Results:
* `Expr.readable_function`, `Expr.readable_arithmetic`: an expression is readable if those in it
  are.
* `Expr.IsArithmetic.readable`: arithmetic is readable.
* `Expr.eq_of_render_eq`: arithmetic renders, and expressions with the same tokens are equal.
-/

namespace SqlTree

open Token

/-! ## What literals hold -/

/-- What a token holds. -/
inductive Token.Content where
  | token (t : Token)
  /-- A date without a time of day. -/
  | day (date : Calendar.Date)

/-- What a token holds: a date at midnight is only its day. -/
def Token.content : Token → Content
  | literal (.date t) => if t.isMidnight then .day t.date else .token (literal (.date t))
  | t => .token t

/-- The time of a date that is only a day is known. -/
theorem Token.eq_startOf_of_content {t : Token} {date : Calendar.Date}
    (h : t.content = .day date) : t = literal (.date (.startOf date)) := by
  unfold content at h
  split at h
  · rename_i moment
    split at h
    · rename_i hmidnight
      obtain rfl : moment.date = date := Content.day.inj h
      rw [← Calendar.Timestamp.eq_startOf_of_isMidnight hmidnight]
    · contradiction
  · contradiction

theorem Token.eq_of_content {t u : Token} (h : t.content = .token u) : t = u := by
  unfold content at h
  split at h
  · split at h
    · contradiction
    · exact Content.token.inj h
  · exact Content.token.inj h

/-- Tokens that hold the same are the same. -/
theorem Token.content_injective : Function.Injective Token.content := by
  intro t u h
  cases hu : u.content with
  | token v => rw [eq_of_content (h.trans hu), eq_of_content hu]
  | day date => rw [eq_startOf_of_content (h.trans hu), eq_startOf_of_content hu]

theorem ArithmeticOp.token_injective : Function.Injective ArithmeticOp.token := by
  intro op op' h
  cases op <;> cases op' <;> first | rfl | simp [token] at h

namespace Expr

/-! ## Arithmetic -/

/-- An expression of fields, constants, parameters and nulls, put together by functions and
operations. -/
inductive IsArithmetic : Expr → Prop where
  | field (table : Option String) (name : String) : IsArithmetic (.field table name)
  | constant (c : Constant) : IsArithmetic (.constant c)
  | parameter (name : String) : IsArithmetic (.parameter name)
  | null : IsArithmetic .null
  | function (name : String) {args : List Expr} (h : ∀ a ∈ args, IsArithmetic a) :
      IsArithmetic (.function name args)
  | arithmetic {left right : Expr} (op : ArithmeticOp) (hleft : IsArithmetic left)
      (hright : IsArithmetic right) : IsArithmetic (.arithmetic left op right)

variable {d : Dialect}

/-- Arithmetic has no pages. -/
theorem IsArithmetic.expandPages_eq {e : Expr} (h : e.IsArithmetic) : e.expandPages = e := by
  induction h with
  | field | constant | parameter | null => rfl
  | function name h ih =>
    rw [expandPages, expandPagesOfAll_eq_map, List.map_congr_left ih, List.map_id']
  | arithmetic op hleft hright ihleft ihright => rw [expandPages, ihleft, ihright]

/-- Every dialect can express arithmetic. -/
theorem IsArithmetic.obstacles_eq_nil {e : Expr} (h : e.IsArithmetic) : e.obstacles d = [] := by
  induction h with
  | field | constant | parameter | null => rfl
  | function name h ih =>
    rw [obstacles, obstaclesOfAll_eq_flatMap]
    exact List.flatMap_eq_nil_iff.mpr ih
  | arithmetic op hleft hright ihleft ihright => rw [obstacles, ihleft, ihright, List.append_nil]

theorem IsArithmetic.render_eq {e : Expr} (h : e.IsArithmetic) :
    e.render d = .ok (e.tokens d) := by
  have hdialect : e.forDialect d = e := by
    rw [forDialect, h.expandPages_eq, ite_self]
  rw [render, hdialect, h.obstacles_eq_nil]
  rfl

/-! ## First tokens -/

/-- The expressions that begin with a token, when some tokens are behind it and others behind the
whole expression. -/
def Begins (d : Dialect) (e : Expr) (rest : List Token) : Token → List Token → Prop
  | .ident first, ts => (e = field none first ∧ ts = rest) ∨
      ∃ name, e = field (some first) name ∧ ts = symbol .dot :: ident name :: rest
  | .literal c, ts => e = constant c ∧ ts = rest
  | .parameter name, ts => e = parameter name ∧ ts = rest
  | .null, ts => e = null ∧ ts = rest
  | .function name, ts => ∃ args, e = function name args ∧ (∀ a ∈ args, a.IsArithmetic) ∧
      ts = symbol .openParen :: (commaList (args.map (tokens d)) ++ symbol .closeParen :: rest)
  | .symbol .openParen, ts => ∃ left op right, e = arithmetic left op right ∧
      left.IsArithmetic ∧ right.IsArithmetic ∧
      ts = left.tokens d ++ space :: op.token :: space ::
        (right.tokens d ++ symbol .closeParen :: rest)
  | _, _ => False

theorem call_append (name : String) (args : List (List Token)) (ts : List Token) :
    call name args ++ ts =
      Token.function name :: symbol .openParen :: (commaList args ++ symbol .closeParen :: ts) := by
  simp [call, parens]

theorem operation_append (left right : List Token) (op : Token) (ts : List Token) :
    operation left op right ++ ts = symbol .openParen ::
      (left ++ space :: op :: space :: (right ++ symbol .closeParen :: ts)) := by
  simp [operation, parens, words_cons_cons]

/-- The first token of arithmetic shows of which kind it is. -/
theorem IsArithmetic.begins {e : Expr} (he : e.IsArithmetic) {t : Token} {ts rest : List Token}
    (h : t :: ts = e.tokens d ++ rest) : e.Begins d rest t ts := by
  cases he with
  | field table name =>
    cases table with
    | none =>
      obtain ⟨rfl, rfl⟩ := List.cons.inj h
      exact .inl ⟨rfl, rfl⟩
    | some first =>
      obtain ⟨rfl, rfl⟩ := List.cons.inj h
      exact .inr ⟨name, rfl, rfl⟩
  | constant | parameter | null =>
    obtain ⟨rfl, rfl⟩ := List.cons.inj h
    exact ⟨rfl, rfl⟩
  | @function name args hargs =>
    rw [tokens, tokensOfAll_eq_map, call_append] at h
    obtain ⟨rfl, rfl⟩ := List.cons.inj h
    exact ⟨args, rfl, hargs, rfl⟩
  | @arithmetic left right op hleft hright =>
    rw [tokens, operation_append] at h
    obtain ⟨rfl, rfl⟩ := List.cons.inj h
    exact ⟨left, op, right, rfl, hleft, hright, rfl⟩

theorem IsArithmetic.tokens_append_ne {e : Expr} (he : e.IsArithmetic) (rest ts : List Token) :
    e.tokens d ++ rest ≠ symbol .closeParen :: ts := fun h =>
  he.begins h.symm

/-! ## Readable expressions -/

/-- An expression and what stands behind it can be told apart, unless a dot stands there. -/
def Readable (d : Dialect) (a : Expr) : Prop :=
  ∀ b ts us, b.IsArithmetic → ts.head? ≠ some (symbol .dot) → us.head? ≠ some (symbol .dot) →
    a.tokens d ++ ts = b.tokens d ++ us → a = b ∧ ts = us

/-- A field without a table is not the table of another field, as no dot follows it. -/
theorem readable_field (table : Option String) (name : String) :
    (field table name).Readable d := by
  intro b ts us hb hts hus h
  cases table with
  | none =>
    rcases hb.begins h with ⟨rfl, rfl⟩ | ⟨other, rfl, rfl⟩
    · exact ⟨rfl, rfl⟩
    · exact absurd rfl hts
  | some first =>
    rcases hb.begins h with ⟨rfl, rfl⟩ | ⟨other, rfl, hrest⟩
    · exact absurd rfl hus
    · obtain ⟨rfl, rfl⟩ : name = other ∧ ts = us := by simpa using hrest
      exact ⟨rfl, rfl⟩

/-- An expression that is written as one token is readable if no other one begins with it. -/
theorem readable_singleton {e : Expr} {t : Token} (htokens : e.tokens d = [t])
    (h : ∀ b ts rest, b.Begins d rest t ts → b = e ∧ ts = rest) : e.Readable d := by
  intro b ts us hb _ _ heq
  rw [htokens] at heq
  obtain ⟨rfl, rfl⟩ := h b _ _ (hb.begins heq)
  exact ⟨rfl, rfl⟩

theorem readable_constant (c : Constant) : (constant c).Readable d :=
  readable_singleton rfl fun _ _ _ h => h

theorem readable_parameter (name : String) : (parameter name).Readable d :=
  readable_singleton rfl fun _ _ _ h => h

theorem readable_null : null.Readable d :=
  readable_singleton rfl fun _ _ _ h => h

/-! ### Arguments -/

/-- The tokens of arguments behind the first one, each after a comma. -/
def listed (d : Dialect) (es : List Expr) : List Token :=
  es.flatMap fun e => symbol .comma :: space :: e.tokens d

theorem commaList_cons_eq (e : Expr) (es : List Expr) :
    commaList ((e :: es).map (tokens d)) = e.tokens d ++ listed d es := by
  induction es generalizing e with
  | nil => simp [listed]
  | cons e' es ih =>
    have ih := ih e'
    simp only [List.map_cons] at ih ⊢
    rw [commaList_cons_cons, ih]
    simp [listed]

theorem head?_listed_append (es : List Expr) (ts : List Token) :
    (listed d es ++ symbol .closeParen :: ts).head? ≠ some (symbol .dot) := by
  cases es <;> simp [listed]

/-- A comma goes on with another argument and a parenthesis ends them, so arguments behind the first
one can be told apart from what stands behind the parenthesis. -/
theorem listed_append_inj {as bs : List Expr} (has : ∀ a ∈ as, a.Readable d)
    (hbs : ∀ b ∈ bs, b.IsArithmetic) {ts us : List Token}
    (h : listed d as ++ symbol .closeParen :: ts = listed d bs ++ symbol .closeParen :: us) :
    as = bs ∧ ts = us := by
  induction as generalizing bs with
  | nil =>
    cases bs with
    | nil => simpa [listed] using h
    | cons b bs => simp [listed] at h
  | cons a as ih =>
    cases bs with
    | nil => simp [listed] at h
    | cons b bs =>
      obtain ⟨ha, has⟩ := List.forall_mem_cons.mp has
      obtain ⟨hb, hbs'⟩ := List.forall_mem_cons.mp hbs
      have hrest : a.tokens d ++ (listed d as ++ symbol .closeParen :: ts) =
          b.tokens d ++ (listed d bs ++ symbol .closeParen :: us) := by
        simpa [listed] using h
      obtain ⟨rfl, hafter⟩ :=
        ha b _ _ hb (head?_listed_append as ts) (head?_listed_append bs us) hrest
      exact (ih has hbs' hafter).imp_left (congrArg _)

/-- The arguments of a function can be told apart from what stands behind the parenthesis. -/
theorem arguments_append_inj {as bs : List Expr} (has : ∀ a ∈ as, a.IsArithmetic)
    (hreadable : ∀ a ∈ as, a.Readable d) (hbs : ∀ b ∈ bs, b.IsArithmetic) {ts us : List Token}
    (h : commaList (as.map (tokens d)) ++ symbol .closeParen :: ts =
      commaList (bs.map (tokens d)) ++ symbol .closeParen :: us) : as = bs ∧ ts = us := by
  cases as with
  | nil =>
    cases bs with
    | nil => simpa using h
    | cons b bs =>
      rw [commaList_cons_eq, List.append_assoc] at h
      exact absurd h.symm ((hbs b List.mem_cons_self).tokens_append_ne _ _)
  | cons a as =>
    cases bs with
    | nil =>
      rw [commaList_cons_eq, List.append_assoc] at h
      exact absurd h ((has a List.mem_cons_self).tokens_append_ne _ _)
    | cons b bs =>
      refine listed_append_inj hreadable hbs ?_
      rw [commaList_cons_eq, commaList_cons_eq, List.append_assoc, List.append_assoc] at h
      simpa [listed] using h

/-- A function is readable if its arguments are. -/
theorem readable_function (name : String) {args : List Expr} (hargs : ∀ a ∈ args, a.IsArithmetic)
    (hreadable : ∀ a ∈ args, a.Readable d) : (function name args).Readable d := by
  intro b ts us hb _ _ h
  rw [tokens, tokensOfAll_eq_map, call_append] at h
  obtain ⟨args', rfl, hargs', hrest⟩ := hb.begins h
  obtain ⟨rfl, rfl⟩ := arguments_append_inj hargs hreadable hargs' (List.cons.inj hrest).2
  exact ⟨rfl, rfl⟩

/-! ### Operations -/

/-- An operation is readable if its operands are: the left one ends at a space, and the right one at
the parenthesis. -/
theorem readable_arithmetic {left right : Expr} (op : ArithmeticOp) (hleft : left.Readable d)
    (hright : right.Readable d) : (arithmetic left op right).Readable d := by
  intro b ts us hb _ _ h
  rw [tokens, operation_append] at h
  obtain ⟨left', op', right', rfl, hleft', hright', hrest⟩ := hb.begins h
  obtain ⟨rfl, hmiddle⟩ := hleft left' _ _ hleft' (by simp) (by simp) hrest
  obtain ⟨hop, hbehind⟩ : op.token = op'.token ∧ right.tokens d ++ symbol .closeParen :: ts =
      right'.tokens d ++ symbol .closeParen :: us := by
    simpa using hmiddle
  obtain rfl := ArithmeticOp.token_injective hop
  obtain ⟨rfl, hafter⟩ := hright right' _ _ hright' (by simp) (by simp) hbehind
  exact ⟨rfl, (List.cons.inj hafter).2⟩

/-! ## All of arithmetic -/

/-- Arithmetic is readable, at any nesting. -/
theorem IsArithmetic.readable {e : Expr} (h : e.IsArithmetic) : e.Readable d := by
  induction h with
  | field table name => exact readable_field table name
  | constant c => exact readable_constant c
  | parameter name => exact readable_parameter name
  | null => exact readable_null
  | function name hargs ih => exact readable_function name hargs ih
  | arithmetic op _ _ ihleft ihright => exact readable_arithmetic op ihleft ihright

/-- Arithmetic renders for every dialect, and expressions of which the tokens hold the same are
equal: how operations are grouped, the order of their operands and the ends of arguments are all
kept. -/
theorem eq_of_render_eq (d : Dialect) {a b : Expr} (ha : a.IsArithmetic) (hb : b.IsArithmetic) :
    ∃ ts us, a.render d = .ok ts ∧ b.render d = .ok us ∧
      (ts.map content = us.map content → a = b) := by
  refine ⟨_, _, ha.render_eq, hb.render_eq, fun h => ?_⟩
  have htokens : a.tokens d = b.tokens d :=
    (List.map_inj_right fun _ _ => @content_injective _ _).mp h
  exact (ha.readable b [] [] hb nofun nofun (by rw [htokens])).1

/-- What is left of a price without a discount and a fee is not the price without the discount that
is left without the fee. -/
theorem eq_of_render_eq_groupings :
    ∃ ts us,
      (Expr.arithmetic (.arithmetic (.field none "price") .subtract
        (.function "ROUND" [.field (some "o") "discount", .constant (.number (.int 2))]))
        .subtract (.parameter "fee")).render .oracle = .ok ts ∧
      (Expr.arithmetic (.field none "price") .subtract (.arithmetic
        (.function "ROUND" [.field (some "o") "discount", .constant (.number (.int 2))])
        .subtract (.parameter "fee"))).render .oracle = .ok us ∧
      ts.map content ≠ us.map content := by
  have hround : (Expr.function "ROUND" [.field (some "o") "discount",
      .constant (.number (.int 2))]).IsArithmetic :=
    .function "ROUND" (forall_mem_pair.mpr ⟨.field (some "o") "discount", .constant _⟩)
  obtain ⟨ts, us, hts, hus, h⟩ := eq_of_render_eq .oracle
    (.arithmetic .subtract (.arithmetic .subtract (.field none "price") hround) (.parameter "fee"))
    (.arithmetic .subtract (.field none "price") (.arithmetic .subtract hround (.parameter "fee")))
  exact ⟨ts, us, hts, hus, fun heq => by cases h heq⟩

end Expr

end SqlTree
