import SqlTree.Proofs.Rendering.Nesting
import SqlTree.Proofs.Tree.Rules

/-!
# Tokens, node by node

The tokens of a tree are those of the trees right below it, between tokens that are the same for
every tree of the kind. What a node adds beyond these plain tokens are its pieces: literals, the
words of joins, and the clauses of a query that differ between dialects or stand in a certain order.
All of them are put together in few ways: one after the other, with a space or a comma in between,
behind a keyword that leads them, and in parentheses.

* `Token.isPlain`, `Token.isPart`: whether a token is the same wherever it stands, and belongs into
  a tree without separating anything;
* `Token.Closed`: a property of lists of tokens that holds of every list if it holds of its pieces;
* `Token.Composed`: one that is kept by the ways in which tokens are put together;
* `Token.Led`: words of which each has a property or is a keyword in front of another word;
* `Node.PiecesHave`, `Node.written`: a property of what a node adds, and the trees right below it
  that are written;
* `Node.Filled`: whether a node writes nothing empty by itself.

Results:
* `Node.tokensHave_of_filled`: the tokens of a filled node have a composed property if its pieces
  and the tokens of its written children have it.
* `Node.tokensHave_of_written`, `Node.tokensHave_of_writes`: the same for a closed property and any
  node, and with the pieces of all nodes that are written.
* `Node.composed_piecesHave`: the pieces of a node have a property if its special keywords and its
  literals have it.
-/

namespace SqlTree

open Token

/-! ## Plain tokens -/

/-- The keywords that order rows, limit them, add subtotals to groups, keep unmatched rows on both
sides of a join, or stand for a missing source. -/
def Keyword.special : List Keyword :=
  [ORDER_BY, TOP, LIMIT, OFFSET, FETCH, NEXT, ONLY, WITH, CUBE, FULL, DUAL]

/-- The keywords that connect queries or change rows. -/
def Keyword.outer : List Keyword := [UNION, ALL, INSERT, INTO, VALUES, UPDATE, SET, DELETE]

/-- The keywords that may be last, as they lead nothing. -/
def Keyword.closing : List Keyword :=
  [ASC, DESC, END, IS_NULL, IS_NOT_NULL, ROWS, ONLY, CUBE, ROLLUP, DUAL]

/-- Whether a keyword is in the queries of every dialect and leads what is behind it. -/
def Keyword.leads (k : Keyword) : Bool := !(special ++ outer ++ closing).contains k

namespace Token

/-- Whether a token is neither special nor an operator on bits nor a number that is not finite. -/
def isPlain : Token → Bool
  | keyword k => !Keyword.special.contains k
  | symbol s => s != .bitAnd
  | literal c => c.isFinite
  | _ => true

/-- Whether a plain token may stand in a tree and neither separates parts nor encloses one nor leads
what is behind it. -/
def isPart (t : Token) : Bool :=
  t.isPlain && match t with
    | space | symbol .comma | symbol .openParen | symbol .closeParen => false
    | keyword k => Keyword.closing.contains k
    | _ => true

/-- A property of lists of tokens that is kept when lists are joined and holds of plain tokens. -/
structure Closed (Q : List Token → Prop) : Prop where
  nil : Q []
  append : ∀ {ts us}, Q ts → Q us → Q (ts ++ us)
  plain : ∀ {t}, t.isPlain = true → Q [t]

/-- A keyword may lead whatever has a property. -/
def Leads (Q : List Token → Prop) (k : Keyword) : Prop :=
  ∀ ts, Q ts → Q (keyword k :: space :: ts)

/-- A keyword that may be last has a property by itself, and another one may lead what has it. -/
def Placed (Q : List Token → Prop) (k : Keyword) : Prop :=
  match Keyword.closing.contains k with
  | true => Q [keyword k]
  | false => Leads Q k

/-- A property of lists of tokens that is kept by the ways in which the tokens of a tree are put
together. It need not hold of the empty list, as nothing is put beside a separator, and it need not
hold of a keyword in front of nothing. -/
structure Composed (Q : List Token → Prop) : Prop where
  part : ∀ {t}, t.isPart = true → Q [t]
  led : ∀ {k}, k.leads = true → Leads Q k
  append : ∀ {ts us}, Q ts → Q us → Q (ts ++ us)
  spaced : ∀ {ts us}, Q ts → Q us → Q (ts ++ space :: us)
  listed : ∀ {ts us}, Q ts → Q us → Q (ts ++ symbol .comma :: space :: us)
  parens : ∀ {ts}, Q ts → Q (Token.parens ts)
  noParts : Q (Token.parens [])

/-! ### Parts put together -/

/-- What a separator keeps holds of parts that are put together, unless there are none. -/
theorem holds_intercalate {Q : List Token → Prop} {separator : List Token}
    {parts : List (List Token)} (hs : ∀ {ts us}, Q ts → Q us → Q (ts ++ separator ++ us))
    (h : ∀ p ∈ parts, Q p) (hne : Q [] ∨ parts ≠ []) : Q (separator.intercalate parts) := by
  induction parts with
  | nil => exact hne.resolve_right fun hnil => hnil rfl
  | cons p ps ih =>
    obtain ⟨hp, hps⟩ := List.forall_mem_cons.mp h
    cases ps with
    | nil => simpa [List.intercalate] using hp
    | cons q qs =>
      have hjoined : separator.intercalate (p :: q :: qs) =
          p ++ separator ++ separator.intercalate (q :: qs) := by
        simp [List.intercalate]
      rw [hjoined]
      exact hs hp (ih hps (.inr (List.cons_ne_nil q qs)))

/-- Words of which each one has a property, by itself or together with some behind it, or is a
keyword that leads the words behind it. -/
inductive Led (Q : List Token → Prop) : List (List Token) → Prop where
  | nil : Led Q []
  | word {p : List Token} {ps : List (List Token)} (hp : Q p) (hps : Led Q ps) : Led Q (p :: ps)
  | joined {ps qs : List (List Token)} (hps : Q (Token.words ps)) (hne : ps ≠ [])
      (hqs : Led Q qs) : Led Q (ps ++ qs)
  | lead {k : Keyword} {ps : List (List Token)} (hk : Leads Q k) (hne : ps ≠ [])
      (hps : Led Q ps) : Led Q ([keyword k] :: ps)

namespace Led

variable {Q : List Token → Prop} {ps qs : List (List Token)} {p : List Token} {k : Keyword}

theorem of_forall (h : ∀ p ∈ ps, Q p) : Led Q ps := by
  induction ps with
  | nil => exact .nil
  | cons p ps ih =>
    obtain ⟨hp, hps⟩ := List.forall_mem_cons.mp h
    exact .word hp (ih hps)

theorem append (hps : Led Q ps) (hqs : Led Q qs) : Led Q (ps ++ qs) := by
  induction hps with
  | nil => exact hqs
  | word hp _ ih => exact .word hp ih
  | joined hps hne _ ih =>
    rw [List.append_assoc]
    exact .joined hps hne ih
  | lead hk hne _ ih => exact .lead hk (List.append_ne_nil_of_left_ne_nil hne qs) ih

theorem flatMap {α : Type} {l : List α} {f : α → List (List Token)}
    (h : ∀ a ∈ l, Led Q (f a)) : Led Q (l.flatMap f) := by
  induction l with
  | nil => exact .nil
  | cons a l ih =>
    obtain ⟨ha, hl⟩ := List.forall_mem_cons.mp h
    exact ha.append (ih hl)

/-- A keyword and the last word, which it leads. -/
theorem pair (hk : Leads Q k) (hp : Q p) : Led Q [[keyword k], p] :=
  .lead hk (List.cons_ne_nil p []) (.word hp .nil)

theorem phrase {isEmpty : Bool} (hk : Leads Q k) (h : isEmpty = false → Q p) :
    Led Q (Token.phrase k isEmpty p) := by
  cases isEmpty with
  | true => exact .nil
  | false => exact .pair hk (h rfl)

theorem wordIf {condition : Bool} (hk : Leads Q k) (hne : ps ≠ []) (hps : Led Q ps) :
    Led Q (Token.wordIf condition k ++ ps) := by
  cases condition with
  | false => exact hps
  | true => exact .lead hk hne hps

end Led

namespace Composed

variable {Q : List Token → Prop} (hQ : Composed Q)

include hQ

theorem cons {t : Token} {ts : List Token} (ht : t.isPart = true) (h : Q ts) : Q (t :: ts) :=
  hQ.append (hQ.part ht) h

theorem words {parts : List (List Token)} (h : Led Q parts) (hne : Q [] ∨ parts ≠ []) :
    Q (Token.words parts) := by
  induction h with
  | nil => exact hne.resolve_right fun hnil => hnil rfl
  | @word p ps hp _ ih =>
    cases ps with
    | nil => exact (words_singleton p).symm ▸ hp
    | cons q qs =>
      rw [words_cons_cons]
      exact hQ.spaced hp (ih (.inr (List.cons_ne_nil q qs)))
  | @joined ps qs hps hps' _ ih =>
    cases qs with
    | nil => rwa [List.append_nil]
    | cons q qs =>
      rw [Outline.words_append_of_ne_nil hps' (List.cons_ne_nil q qs)]
      exact hQ.spaced hps (ih (.inr (List.cons_ne_nil q qs)))
  | @lead k ps hk hps _ ih =>
    obtain ⟨q, qs, rfl⟩ := List.exists_cons_of_ne_nil hps
    rw [words_cons_cons]
    exact hk _ (ih (.inr hps))

theorem commaList {parts : List (List Token)} (h : ∀ p ∈ parts, Q p) (hne : Q [] ∨ parts ≠ []) :
    Q (Token.commaList parts) := by
  refine holds_intercalate (fun {ts us} hts hus => ?_) h hne
  rw [List.append_assoc, List.cons_append, List.singleton_append]
  exact hQ.listed hts hus

theorem connected {k : Keyword} (hk : k.leads = true) {parts : List (List Token)}
    (h : ∀ p ∈ parts, Q p) (hne : Q [] ∨ parts ≠ []) :
    Q ([space, keyword k, space].intercalate parts) := by
  refine holds_intercalate (fun {ts us} hts hus => ?_) h hne
  have hspaced := hQ.spaced hts (hQ.led hk _ hus)
  simpa using hspaced

theorem call {name : String} {args : List (List Token)} (h : ∀ p ∈ args, Q p) :
    Q (Token.call name args) := by
  refine hQ.cons rfl ?_
  cases args with
  | nil => exact hQ.noParts
  | cons arg args => exact hQ.parens (hQ.commaList h (.inr (List.cons_ne_nil arg args)))

theorem operation {left right : List Token} {op : Token} (hleft : Q left) (hop : Q [op])
    (hright : Q right) : Q (Token.operation left op right) :=
  hQ.parens (hQ.words (.of_forall (by simp [hleft, hop, hright])) (.inr (List.cons_ne_nil _ _)))

theorem field (table : Option String) (name : String) : Q (Token.field table name) := by
  cases table with
  | none => exact hQ.part rfl
  | some t => exact hQ.cons rfl (hQ.cons rfl (hQ.part rfl))

theorem renamed {part : List Token} {withAs : Bool} {aliasName : Option String} (h : Q part) :
    Q (Token.renamed part withAs aliasName) := by
  cases aliasName with
  | none => exact h
  | some a =>
    refine hQ.words (.word h (.wordIf (hQ.led rfl) (List.cons_ne_nil _ _) ?_))
      (.inr (List.cons_ne_nil _ _))
    exact .word (hQ.part rfl) .nil

theorem fieldEquations (left right : String) {pairs : List (String × String)}
    (hne : Q [] ∨ pairs ≠ []) : Q (Token.fieldEquations left right pairs) := by
  refine hQ.connected rfl (List.forall_mem_map.mpr fun pair _ => ?_) (hne.imp_right (by simp))
  exact hQ.words (.of_forall (by simp [hQ.field, hQ.part (t := symbol .equal) rfl]))
    (.inr (List.cons_ne_nil _ _))

theorem inList {part : List Token} {values : List Constant}
    (h : values.isEmpty = false → Q part) (hvalues : ∀ c ∈ values, Q [literal c])
    (negated : Bool) : Q (Token.inList part values negated) := by
  unfold Token.inList
  split
  · have hnumber : Q [integer (if negated then 1 else 0)] := by cases negated <;> exact hQ.part rfl
    refine hQ.words (.of_forall ?_) (.inr (List.cons_ne_nil _ _))
    simp [hnumber, hQ.part (t := integer 1) rfl, hQ.part (t := symbol .equal) rfl]
  · rename_i hempty
    have hpart : Q part := h (Bool.not_eq_true _ |>.mp hempty)
    have hlist : Q (Token.parens (Token.commaList (values.map fun c => [literal c]))) :=
      hQ.parens (hQ.commaList (List.forall_mem_map.mpr hvalues)
        (.inr (by simpa using hempty)))
    refine hQ.words (.word hpart (.wordIf (hQ.led rfl) (List.cons_ne_nil _ _) ?_))
      (.inr (List.cons_ne_nil _ _))
    exact .pair (hQ.led rfl) hlist

theorem bitAnd {d : Dialect} {left right : List Token} (hleft : Q left) (hright : Q right)
    (hop : d ≠ .oracle → Q [symbol .bitAnd]) : Q (d.bitAnd left right) := by
  unfold Dialect.bitAnd
  split
  · exact hQ.call (by simp [hleft, hright])
  · rename_i hd
    exact hQ.operation hleft (hop hd) hright

end Composed

namespace Closed

variable {Q : List Token → Prop} (hQ : Closed Q)

include hQ

theorem cons {t : Token} {ts : List Token} (ht : t.isPlain = true) (h : Q ts) : Q (t :: ts) :=
  hQ.append (hQ.plain ht) h

/-- The property holds of lists of plain tokens. -/
theorem of_plain {ts : List Token} (h : ∀ t ∈ ts, t.isPlain = true) : Q ts := by
  induction ts with
  | nil => exact hQ.nil
  | cons t ts ih =>
    obtain ⟨ht, hts⟩ := List.forall_mem_cons.mp h
    exact hQ.cons ht (ih hts)

/-- A keyword that has a closed property leads whatever has it. -/
theorem leads {k : Keyword} (hk : Q [keyword k]) : Leads Q k :=
  fun _ h => hQ.append hk (hQ.cons rfl h)

theorem placed {k : Keyword} (hk : Q [keyword k]) : Placed Q k := by
  unfold Placed
  split
  · exact hk
  · exact hQ.leads hk

/-- A closed property is kept by all ways to put tokens together, as what separates them and
encloses them is plain. -/
theorem composed : Composed Q where
  part ht := hQ.plain (Bool.and_eq_true _ _ |>.mp ht).1
  led {k} hk := by
    have hplain : (keyword k).isPlain = true := by
      revert hk
      cases k <;> decide
    exact hQ.leads (hQ.plain hplain)
  append := hQ.append
  spaced hts hus := hQ.append hts (hQ.cons rfl hus)
  listed hts hus := hQ.append hts (hQ.cons rfl (hQ.cons rfl hus))
  parens h := hQ.append (hQ.cons rfl h) (hQ.plain rfl)
  noParts := hQ.of_plain (by decide)

theorem words {parts : List (List Token)} (h : ∀ p ∈ parts, Q p) : Q (Token.words parts) :=
  hQ.composed.words (.of_forall h) (.inl hQ.nil)

theorem commaList {parts : List (List Token)} (h : ∀ p ∈ parts, Q p) :
    Q (Token.commaList parts) :=
  hQ.composed.commaList h (.inl hQ.nil)

theorem parens {part : List Token} (h : Q part) : Q (Token.parens part) :=
  hQ.composed.parens h

end Closed

end Token

/-! ## Formulas -/

namespace Formula

variable {Q : List Token → Prop} {s f : List Token}

mutual

/-- A formula puts its two dates together with parts. -/
theorem composed_tokens (hQ : Composed Q) (hs : Q s) (hf : Q f) : ∀ x : Formula, Q (x.tokens s f)
  | start => hs
  | finish => hf
  | integer _ | text _ | word _ => hQ.part rfl
  | call name args => hQ.call (composed_of_mem_tokensOfAll hQ hs hf args)
  | operation left op right => by
    have hop : Q [op.token] := by cases op <;> exact hQ.part rfl
    exact hQ.operation (composed_tokens hQ hs hf left) hop (composed_tokens hQ hs hf right)
  | extract part date => by
    have hdate := composed_tokens hQ hs hf date
    exact hQ.cons rfl (hQ.parens (hQ.words (.word (hQ.part rfl) (.pair (hQ.led rfl) hdate))
      (.inr (List.cons_ne_nil _ _))))
  | cast value type => by
    have hvalue := composed_tokens hQ hs hf value
    exact hQ.cons rfl (hQ.parens (hQ.words (.word hvalue (.pair (hQ.led rfl) (hQ.part rfl)))
      (.inr (List.cons_ne_nil _ _))))

theorem composed_of_mem_tokensOfAll (hQ : Composed Q) (hs : Q s) (hf : Q f) :
    ∀ xs : List Formula, ∀ p ∈ tokensOfAll s f xs, Q p
  | [], _, hp => by simp [tokensOfAll] at hp
  | x :: xs, p, hp => by
    rcases List.mem_cons.mp hp with rfl | hp
    · exact composed_tokens hQ hs hf x
    · exact composed_of_mem_tokensOfAll hQ hs hf xs p hp

end

end Formula

/-! ## Lists -/

section Lists

variable (d : Dialect)

theorem Expr.tokensOfAll_eq_map (es : List Expr) :
    Expr.tokensOfAll d es = es.map (Expr.tokens d) := by
  induction es with
  | nil => rfl
  | cons e es ih => rw [Expr.tokensOfAll, ih, List.map_cons]

theorem CaseArm.wordsOfAll_eq_flatMap (arms : List CaseArm) :
    CaseArm.wordsOfAll d arms = arms.flatMap fun a =>
      [[keyword .WHEN], a.condition.tokens d, [keyword .THEN], a.result.tokens d] := by
  induction arms with
  | nil => rfl
  | cons a arms ih =>
    obtain ⟨condition, result⟩ := a
    rw [CaseArm.wordsOfAll, ih, List.flatMap_cons]

theorem Predicate.tokensOfAll_eq_map (ps : List Predicate) :
    Predicate.tokensOfAll d ps = ps.map (Predicate.tokens d) := by
  induction ps with
  | nil => rfl
  | cons p ps ih => rw [Predicate.tokensOfAll, ih, List.map_cons]

theorem Condition.tokensOfGroups_eq_map (gs : List Condition) :
    Condition.tokensOfGroups d gs =
      (gs.filter fun g => !g.isEmpty).map fun g => parens (g.tokens d) := by
  induction gs with
  | nil => rfl
  | cons g gs ih =>
    rw [Condition.tokensOfGroups, ih]
    cases h : g.isEmpty <;> simp [h]

theorem Join.wordsOfAll_eq_flatMap (tableSpace : Option String) (js : List Join) :
    Join.wordsOfAll d tableSpace js = js.flatMap fun j =>
      j.joinType.words ++ [[keyword .JOIN], j.right.tokens d tableSpace] ++
        j.condition.words d (j.right.refName.getD "") := by
  induction js with
  | nil => rfl
  | cons j js ih =>
    obtain ⟨joinType, right, condition⟩ := j
    rw [Join.wordsOfAll, ih, List.flatMap_cons]

theorem SelectItem.tokensOfAll_eq_map (is : List SelectItem) :
    SelectItem.tokensOfAll d is = is.map (SelectItem.tokens d) := by
  induction is with
  | nil => rfl
  | cons i is ih =>
    obtain ⟨e, aliasName⟩ := i
    rw [SelectItem.tokensOfAll, ih, List.map_cons, SelectItem.tokens]

end Lists

/-! ## Nodes -/

/-- The keywords with which a dialect limits the rows of a query. -/
def Dialect.limitKeywords : Dialect → List Keyword
  | sqlServer => [.TOP]
  | oracle => [.FETCH, .ONLY]
  | mySql | postgres => [.LIMIT, .OFFSET]

namespace Node

/-- The parts of a node's tokens that are neither plain nor those of a node below it have a
property, in front of whatever has it where they do not stand by themselves. -/
def PiecesHave (d : Dialect) (Q : List Token → Prop) : Node → Prop
  | expr (.constant c) => Q [literal c]
  | expr (.rowNumber orderBy) => Q ((Expr.rowNumber orderBy).tokens d)
  | predicate (.compare _ .sharesBits _) => d ≠ .oracle → Q [symbol .bitAnd]
  | predicate (.inList _ values _) => ∀ c ∈ values, Q [literal c]
  | fromClause f => ∀ j ∈ f.joins, ∀ {ps}, ps ≠ [] → Led Q ps → Led Q (j.joinType.words ++ ps)
  | select q => (∀ {p}, Q p → Led Q (selectWords d q.distinct q.top ++ [p])) ∧
      Led Q (groupWords d q.groupModifier q.groupBy) ∧ Led Q (orderWords q.orderBy) ∧
      Led Q (limitingWords d q.top q.page)
  | _ => True

/-- The special keywords that may be in the pieces of a node. -/
def keywords (d : Dialect) : Node → List Keyword
  | expr (.rowNumber _) => [.ORDER_BY]
  | fromClause f => f.joins.flatMap fun j => if j.joinType = .full then [.FULL] else []
  | select q => d.limitKeywords ++ (if d.groupModifierStyle = .suffix then [.WITH] else []) ++
      (if q.groupBy ≠ [] ∧ q.groupModifier = .cube then [.CUBE] else []) ++
      (if q.orderBy ≠ [] then [.ORDER_BY] else [])
  | _ => []

/-- The trees right below a node that are written. An empty condition is not, nor an expression in
front of an empty list of values, nor a join without a base. -/
def written : Node → List Node
  | predicate (.inList e values _) => if values.isEmpty then [] else [expr e]
  | condition c =>
    c.predicates.map predicate ++ (c.groups.filter fun g => !g.isEmpty).map condition
  | select q =>
    q.items.map (fun i => expr i.expr) ++
      (if q.source.isEmpty then [] else [fromClause q.source]) ++
      (if q.filter.isEmpty then [] else [condition q.filter]) ++
      (if q.having.isEmpty then [] else [condition q.having])
  | n => n.children

theorem written_subset_children (n : Node) : n.written ⊆ n.children := by
  intro c hc
  cases n with
  | predicate p =>
    cases p with
    | inList e values negated =>
      simp only [written] at hc
      split at hc
      · simp at hc
      · exact hc
    | _ => exact hc
  | condition g =>
    simp only [written, children, List.mem_append, List.mem_map, List.mem_filter] at hc ⊢
    grind
  | select q =>
    simp only [written, children, List.mem_append, List.mem_map] at hc ⊢
    grind
  | _ => exact hc

/-- The tokens of a node have a property, whatever the namespace of its tables is. -/
def TokensHave (d : Dialect) (Q : List Token → Prop) : Node → Prop
  | expr e => Q (e.tokens d)
  | predicate p => Q (p.tokens d)
  | condition c => Q (c.tokens d)
  | tableRef t => ∀ tableSpace, Q (t.tokens d tableSpace)
  | fromClause f => ∀ tableSpace, Q (Token.words (f.words d tableSpace))
  | select q => Q (q.tokens d)

/-- A node writes nothing empty where something is expected: a difference of dates has a formula, a
window has an order, a condition has a predicate, and sources have a base and equal fields. -/
def Filled (d : Dialect) : Node → Prop
  | expr (.dateDiff unit _ _) => (d.dateDifference? unit).isSome = true
  | expr (.rowNumber orderBy) => orderBy ≠ []
  | condition c => c.HasPredicate
  | fromClause f => f.base ≠ none ∧
      ∀ j ∈ f.joins, ∀ left pairs, j.condition = .fields left pairs → pairs ≠ []
  | _ => True

section Composed

variable {d : Dialect} {Q : List Token → Prop} (hQ : Composed Q)

include hQ

theorem tokensHave_expr {e : Expr} (hfilled : Q [] ∨ (expr e).Filled d)
    (hpieces : (expr e).PiecesHave d Q) (hwritten : ∀ c ∈ e.nodes, c.TokensHave d Q) :
    Q (e.tokens d) := by
  cases e with
  | constant c => exact hpieces
  | rowNumber orderBy => exact hpieces
  | field table name => exact hQ.field table name
  | parameter name | raw sql | null => exact hQ.part rfl
  | star table =>
    cases table with
    | none => exact hQ.part rfl
    | some t => exact hQ.cons rfl (hQ.cons rfl (hQ.part rfl))
  | function name args =>
    rw [Expr.tokens, Expr.tokensOfAll_eq_map]
    refine hQ.call (List.forall_mem_map.mpr fun a ha => ?_)
    exact hwritten (expr a) (List.mem_map_of_mem ha)
  | aggregate f arg distinct =>
    have harg {part : List Token} (hpart : Q part) :
        Q (Token.function f.keyword :: parens (words (wordIf distinct .DISTINCT ++ [part]))) := by
      have hwords : Led Q (wordIf distinct .DISTINCT ++ [part]) :=
        .wordIf (hQ.led rfl) (List.cons_ne_nil _ _) (.word hpart .nil)
      exact hQ.cons rfl (hQ.parens (hQ.words hwords (.inr (by simp))))
    cases arg with
    | none =>
      rw [Expr.tokens]
      exact harg (hQ.part rfl)
    | some a =>
      rw [Expr.tokens]
      exact harg (hwritten (expr a) List.mem_cons_self)
  | case arms otherwise =>
    obtain ⟨hnodes, hotherwise⟩ := List.forall_mem_append.mp hwritten
    have harms : Led Q (CaseArm.wordsOfAll d arms) := by
      rw [CaseArm.wordsOfAll_eq_flatMap]
      refine .flatMap fun a ha => ?_
      have harm : ∀ c ∈ a.nodes, c.TokensHave d Q := fun c hc =>
        hnodes c (List.mem_flatMap.mpr ⟨a, ha, hc⟩)
      have hcondition : Q (a.condition.tokens d) := harm (.condition _) (by simp [CaseArm.nodes])
      have hresult : Q (a.result.tokens d) := harm (.expr _) (by simp [CaseArm.nodes])
      exact .lead (hQ.led rfl) (List.cons_ne_nil _ _)
        (.word hcondition (.pair (hQ.led rfl) hresult))
    have hend : Led Q [[keyword .END]] := .word (hQ.part rfl) .nil
    cases otherwise with
    | none =>
      rw [Expr.tokens]
      exact hQ.words (.lead (hQ.led rfl) (by simp) (harms.append hend))
        (.inr (List.cons_ne_nil _ _))
    | some x =>
      have hx : Led Q [[keyword .ELSE], x.tokens d, [keyword .END]] :=
        .lead (hQ.led rfl) (List.cons_ne_nil _ _)
          (.word (hotherwise (expr x) List.mem_cons_self) hend)
      rw [Expr.tokens]
      exact hQ.words (.lead (hQ.led rfl) (by simp) (harms.append hx))
        (.inr (List.cons_ne_nil _ _))
  | arithmetic left op right =>
    obtain ⟨hleft, hright⟩ := forall_mem_pair.mp hwritten
    have hop : Q [op.token] := by cases op <;> exact hQ.part rfl
    rw [Expr.tokens]
    exact hQ.operation hleft hop hright
  | dateDiff unit start finish =>
    obtain ⟨hstart, hfinish⟩ := forall_mem_pair.mp hwritten
    rw [Expr.tokens]
    split
    · exact Formula.composed_tokens hQ hstart hfinish _
    · rename_i hnone
      refine hfilled.resolve_right fun hsome => ?_
      rw [Filled, hnone] at hsome
      contradiction
  | ifNull value fallback =>
    obtain ⟨hvalue, hfallback⟩ := forall_mem_pair.mp hwritten
    rw [Expr.tokens]
    exact hQ.call (forall_mem_pair.mpr ⟨hvalue, hfallback⟩)
  | subquery q =>
    rw [Expr.tokens]
    exact hQ.parens (hwritten (select q) List.mem_cons_self)

theorem tokensHave_subquery {s : Subquery} (h : ∀ c ∈ s.nodes, c.TokensHave d Q) :
    Q (s.tokens d) := by
  cases s with
  | query q => exact h (select q) List.mem_cons_self
  | text sql => exact hQ.part rfl

theorem tokensHave_compare {left right : Expr} {op : CompareOp}
    (hpieces : (predicate (.compare left op right)).PiecesHave d Q)
    (hleft : Q (left.tokens d)) (hright : Q (right.tokens d)) :
    Q ((Predicate.compare left op right).tokens d) := by
  by_cases hop : op = .sharesBits
  · subst hop
    have hbits : Q (d.bitAnd (left.tokens d) (right.tokens d)) :=
      hQ.bitAnd hleft hright hpieces
    rw [Predicate.tokens]
    exact hQ.words (.of_forall (by simp [hbits, hQ.part (t := symbol .notEqual) rfl,
      hQ.part (t := integer 0) rfl])) (.inr (List.cons_ne_nil _ _))
  · rw [Predicate.tokens.eq_2 _ _ _ _ hop]
    refine hQ.words (.word hleft ?_) (.inr (List.cons_ne_nil _ _))
    by_cases hlike : op = .like
    · subst hlike
      exact .pair (hQ.led rfl) hright
    · have hpart : op.token.isPart = true := by cases op <;> first | rfl | contradiction
      exact .word (hQ.part hpart) (.word hright .nil)

theorem tokensHave_predicate {p : Predicate} (hpieces : (predicate p).PiecesHave d Q)
    (hwritten : ∀ c ∈ (predicate p).written, c.TokensHave d Q) : Q (p.tokens d) := by
  have hnot {negated : Bool} {ps : List (List Token)} (hne : ps ≠ []) (hps : Led Q ps) :
      Led Q (wordIf negated .NOT ++ ps) := .wordIf (hQ.led rfl) hne hps
  cases p with
  | compare left op right =>
    obtain ⟨hleft, hright⟩ := forall_mem_pair.mp hwritten
    exact tokensHave_compare hQ hpieces hleft hright
  | between e low high negated =>
    obtain ⟨he, hbounds⟩ := List.forall_mem_cons.mp hwritten
    obtain ⟨hlow, hhigh⟩ := forall_mem_pair.mp hbounds
    have hlow : Q (low.tokens d) := hlow
    have hhigh : Q (high.tokens d) := hhigh
    have hrange : Led Q [[keyword .BETWEEN], low.tokens d, [keyword .AND], high.tokens d] :=
      .lead (hQ.led rfl) (List.cons_ne_nil _ _) (.word hlow (.pair (hQ.led rfl) hhigh))
    rw [Predicate.tokens]
    exact hQ.words (.word he (hnot (List.cons_ne_nil _ _) hrange)) (.inr (List.cons_ne_nil _ _))
  | inList e values negated =>
    have he : values.isEmpty = false → Q (e.tokens d) := fun hvalues =>
      hwritten (expr e) (by simp [written, hvalues])
    exact hQ.inList he hpieces negated
  | inSubquery e s negated =>
    obtain ⟨he, hs⟩ := List.forall_mem_cons.mp hwritten
    have hs : Q (parens (s.tokens d)) := hQ.parens (tokensHave_subquery hQ hs)
    rw [Predicate.tokens]
    exact hQ.words (.word he (hnot (List.cons_ne_nil _ _) (.pair (hQ.led rfl) hs)))
      (.inr (List.cons_ne_nil _ _))
  | isNull e negated =>
    have he : Q (e.tokens d) := hwritten (expr e) List.mem_cons_self
    have hword : Q [keyword (if negated then .IS_NOT_NULL else .IS_NULL)] := by
      cases negated <;> exact hQ.part rfl
    rw [Predicate.tokens]
    exact hQ.words (.of_forall (forall_mem_pair.mpr ⟨he, hword⟩)) (.inr (List.cons_ne_nil _ _))
  | «exists» s negated =>
    have hs : Q (parens (s.tokens d)) := hQ.parens (tokensHave_subquery hQ hwritten)
    rw [Predicate.tokens]
    exact hQ.words (hnot (List.cons_ne_nil _ _) (.pair (hQ.led rfl) hs)) (.inr (by simp))
  | raw sql => exact hQ.part rfl

theorem tokensHave_condition {c : Condition} (hfilled : Q [] ∨ (condition c).Filled d)
    (hwritten : ∀ m ∈ (condition c).written, m.TokensHave d Q) : Q (c.tokens d) := by
  have hnonempty : (condition c).Filled d → c.isEmpty = false := c.isEmpty_eq_false_iff.mpr
  obtain ⟨connective, predicates, groups⟩ := c
  obtain ⟨hpredicates, hgroups⟩ := List.forall_mem_append.mp hwritten
  have hconnective : connective.keyword.leads = true := by cases connective <;> rfl
  rw [Condition.tokens, Predicate.tokensOfAll_eq_map, Condition.tokensOfGroups_eq_map]
  refine hQ.connected hconnective (List.forall_mem_append.mpr ⟨?_, ?_⟩) (hfilled.imp_right ?_)
  · exact List.forall_mem_map.mpr fun p hp =>
      hpredicates (predicate p) (List.mem_map_of_mem hp)
  · exact List.forall_mem_map.mpr fun g hg =>
      hQ.parens (hgroups (condition g) (List.mem_map_of_mem hg))
  · intro hfilled hnil
    obtain ⟨hpredicates, hgroups⟩ := List.append_eq_nil_iff.mp hnil
    have hempty := hnonempty hfilled
    rw [Condition.isEmpty, List.map_eq_nil_iff.mp hpredicates, List.isEmpty_nil, Bool.true_and,
      Condition.allEmpty_eq_false_iff] at hempty
    obtain ⟨g, hg, hfilled⟩ := hempty
    have hmem : parens (g.tokens d) ∈ ([] : List (List Token)) := by
      rw [← hgroups]
      exact List.mem_map_of_mem
        (List.mem_filter.mpr ⟨hg, by simp [g.isEmpty_eq_false_iff.mpr hfilled]⟩)
    exact absurd hmem List.not_mem_nil

theorem tokensHave_tableRef {t : TableRef} (hwritten : ∀ c ∈ t.source.nodes, c.TokensHave d Q)
    (tableSpace : Option String) : Q (t.tokens d tableSpace) := by
  obtain ⟨source, aliasName⟩ := t
  rw [TableRef.tokens]
  refine hQ.renamed ?_
  cases source with
  | table name namespaceName | aliasRef name => exact hQ.part rfl
  | query q => exact hQ.parens (hwritten (select q) List.mem_cons_self)
  | queryText sql => exact hQ.parens (hQ.part rfl)

theorem tokensHave_join {j : Join}
    (hfilled : Q [] ∨ ∀ left pairs, j.condition = .fields left pairs → pairs ≠ [])
    (htype : ∀ {ps}, ps ≠ [] → Led Q ps → Led Q (j.joinType.words ++ ps))
    (hwritten : ∀ c ∈ j.nodes, c.TokensHave d Q) (tableSpace : Option String) :
    Led Q (j.joinType.words ++ [[keyword .JOIN], j.right.tokens d tableSpace] ++
      j.condition.words d (j.right.refName.getD "")) := by
  obtain ⟨joinType, right, condition⟩ := j
  obtain ⟨hright, hcondition⟩ := List.forall_mem_cons.mp hwritten
  have hjoin : Led Q (joinType.words ++ [[keyword .JOIN], right.tokens d tableSpace]) :=
    htype (List.cons_ne_nil _ _) (.pair (hQ.led rfl) (hright tableSpace))
  refine hjoin.append ?_
  cases condition with
  | fields left pairs =>
    have hpairs : Q [] ∨ pairs ≠ [] := hfilled.imp_right fun h => h left pairs rfl
    exact .pair (hQ.led rfl) (hQ.fieldEquations left _ hpairs)
  | condition c => exact .pair (hQ.led rfl) (hcondition (.condition c) List.mem_cons_self)
  | none => exact .nil

theorem tokensHave_fromClause {f : FromClause} (hfilled : Q [] ∨ (fromClause f).Filled d)
    (hpieces : (fromClause f).PiecesHave d Q)
    (hwritten : ∀ c ∈ (fromClause f).written, c.TokensHave d Q) (tableSpace : Option String) :
    Q (Token.words (f.words d tableSpace)) := by
  obtain ⟨base, joins⟩ := f
  obtain ⟨hbase, hjoins⟩ := List.forall_mem_append.mp hwritten
  have hwords : Led Q (Join.wordsOfAll d tableSpace joins) := by
    rw [Join.wordsOfAll_eq_flatMap]
    refine .flatMap fun j hj => tokensHave_join hQ ?_ (hpieces j hj) ?_ tableSpace
    · exact hfilled.imp_right fun h => h.2 j hj
    · exact fun c hc => hjoins c (List.mem_flatMap.mpr ⟨j, hj, hc⟩)
  cases base with
  | none =>
    have hnil : Q [] := hfilled.resolve_right fun h => h.1 rfl
    exact hQ.words (.word hnil hwords) (.inl hnil)
  | some base =>
    exact hQ.words (.word (hbase (tableRef base) List.mem_cons_self tableSpace) hwords)
      (.inr (List.cons_ne_nil _ _))

theorem tokensHave_select {q : Select} (hpieces : (select q).PiecesHave d Q)
    (hwritten : ∀ c ∈ (select q).written, c.TokensHave d Q) : Q (q.tokens d) := by
  obtain ⟨items, source, filter, groupBy, groupModifier, having, orderBy, distinct, top, page,
    tableSpace⟩ := q
  obtain ⟨hselect, hgroup, horder, hlimit⟩ := hpieces
  simp only [written, List.forall_mem_append, List.forall_mem_map] at hwritten
  obtain ⟨⟨⟨hitems, hsource⟩, hfilter⟩, hhaving⟩ := hwritten
  have hlist : Q (if items.isEmpty then [symbol .star]
      else commaList (SelectItem.tokensOfAll d items)) := by
    rw [SelectItem.tokensOfAll_eq_map]
    split
    · exact hQ.part rfl
    · rename_i hempty
      exact hQ.commaList (List.forall_mem_map.mpr fun i hi => hQ.renamed (hitems i hi))
        (.inr (by simpa using hempty))
  have hwhere : Led Q (phrase .WHERE filter.isEmpty (filter.tokens d)) :=
    .phrase (hQ.led rfl) fun hf => hfilter (condition filter) (by simp [hf])
  have hhaving : Led Q (phrase .HAVING having.isEmpty (having.tokens d)) :=
    .phrase (hQ.led rfl) fun hf => hhaving (condition having) (by simp [hf])
  have hfrom : Led Q (if source.isEmpty then []
      else [keyword .FROM] :: source.words d tableSpace) := by
    split
    · exact .nil
    · rename_i hempty
      have hwords : Q (Token.words (source.words d tableSpace)) :=
        hsource (fromClause source) (by simp [hempty]) tableSpace
      have hne : source.words d tableSpace ≠ [] := by
        obtain ⟨base, joins⟩ := source
        cases base <;> exact List.cons_ne_nil _ _
      rw [← List.append_nil (source.words d tableSpace)]
      exact .lead (hQ.led rfl) (by simp [hne]) (.joined hwords hne .nil)
  rw [Select.tokens]
  refine hQ.words ?_ (.inr (by simp))
  exact (((((hselect hlist).append hfrom).append hwhere).append hgroup).append hhaving).append
    horder |>.append hlimit

/-- The tokens of a filled node have a composed property if its pieces and the tokens of its written
children have it. It may be empty if the property holds of nothing as well. -/
theorem tokensHave_of_filled {n : Node} (hfilled : Q [] ∨ n.Filled d)
    (hpieces : n.PiecesHave d Q) (hwritten : ∀ c ∈ n.written, c.TokensHave d Q) :
    n.TokensHave d Q := by
  cases n with
  | expr e => exact tokensHave_expr hQ hfilled hpieces hwritten
  | predicate p => exact tokensHave_predicate hQ hpieces hwritten
  | condition c => exact tokensHave_condition hQ hfilled hwritten
  | tableRef t => exact tokensHave_tableRef hQ hwritten
  | fromClause f => exact tokensHave_fromClause hQ hfilled hpieces hwritten
  | select q => exact tokensHave_select hQ hpieces hwritten

end Composed

variable {d : Dialect} {Q : List Token → Prop}

/-- The tokens of a node have a closed property if its pieces and the tokens of its written children
have it. -/
theorem tokensHave_of_written (hQ : Closed Q) {n : Node} (hpieces : n.PiecesHave d Q)
    (hwritten : ∀ c ∈ n.written, c.TokensHave d Q) : n.TokensHave d Q :=
  tokensHave_of_filled hQ.composed (.inl hQ.nil) hpieces hwritten

/-! ## Nodes that are written -/

/-- A node is another one or is written somewhere below it. -/
inductive Writes : Node → Node → Prop where
  | self (n : Node) : Writes n n
  | descend {n c m : Node} (hc : c ∈ n.written) (h : Writes c m) : Writes n m

theorem Writes.contains {n m : Node} (h : n.Writes m) : n.Contains m := by
  induction h with
  | self n => exact .self n
  | descend hc _ ih => exact .descend (written_subset_children _ hc) ih

/-- The tokens of a node have a closed property if the pieces of all nodes that are written have
it. -/
theorem tokensHave_of_writes (hQ : Closed Q) {n : Node}
    (h : ∀ m, n.Writes m → m.PiecesHave d Q) : n.TokensHave d Q := by
  induction n using Node.induction with
  | step n ih =>
    refine tokensHave_of_written hQ (h n (.self n)) fun c hc => ?_
    exact ih c (written_subset_children n hc) fun m hm => h m (.descend hc hm)

end Node

/-! ## Pieces -/

namespace Token.Composed

variable {Q : List Token → Prop} (hQ : Composed Q) {d : Dialect}

include hQ

theorem sortKeys {keys : List SortKey} (hne : Q [] ∨ keys ≠ []) :
    Q (Token.commaList (keys.map SortKey.tokens)) := by
  refine hQ.commaList (List.forall_mem_map.mpr fun k _ => ?_) (hne.imp_right (by simp))
  have hdirection : (keyword k.direction.keyword).isPart = true := by cases k.direction <;> rfl
  exact hQ.words (.of_forall (forall_mem_pair.mpr
    ⟨hQ.field k.table k.field, hQ.part hdirection⟩)) (.inr (List.cons_ne_nil _ _))

theorem rowNumber (horder : Leads Q .ORDER_BY) {keys : List SortKey}
    (hne : Q [] ∨ keys ≠ []) : Q ((Expr.rowNumber keys).tokens d) := by
  have hkeys : Q (Token.words [[keyword .ORDER_BY],
      Token.commaList (keys.map SortKey.tokens)]) :=
    hQ.words (.pair horder (hQ.sortKeys hne)) (.inr (List.cons_ne_nil _ _))
  have hname : Q (Token.function "ROW_NUMBER" :: Token.parens []) := hQ.cons rfl hQ.noParts
  rw [Expr.tokens]
  exact hQ.words (.word hname (.pair (hQ.led rfl) (hQ.parens hkeys)))
    (.inr (List.cons_ne_nil _ _))

theorem orderWords {keys : List SortKey} (horder : keys ≠ [] → Leads Q .ORDER_BY) :
    Led Q (Token.orderWords keys) := by
  unfold Token.orderWords
  split
  · exact .nil
  · rename_i hkeys
    have hkeys : keys ≠ [] := by simpa using hkeys
    exact .pair (horder hkeys) (hQ.sortKeys (.inr hkeys))

theorem joinTypeWords {t : JoinType} (hfull : t = .full → Leads Q .FULL)
    {ps : List (List Token)} (hne : ps ≠ []) (hps : Led Q ps) : Led Q (t.words ++ ps) := by
  cases t with
  | full => exact .lead (hfull rfl) (List.cons_ne_nil _ _) (.lead (hQ.led rfl) hne hps)
  | inner | left | right | cross => exact .lead (hQ.led rfl) hne hps

theorem groupWords {modifier : GroupModifier} {keys : List GroupKey}
    (hwith : d.groupModifierStyle = .suffix → Leads Q .WITH)
    (hcube : keys ≠ [] ∧ modifier = .cube → Q [keyword .CUBE]) :
    Led Q (Token.groupWords d modifier keys) := by
  unfold Token.groupWords
  split
  · exact .nil
  · rename_i hkeys
    have hkeys : keys ≠ [] := by simpa using hkeys
    have hmodifier : ∀ k, modifier.keyword? = some k → Q [keyword k] := by
      intro k hk
      cases modifier with
      | none => simp [GroupModifier.keyword?] at hk
      | cube =>
        obtain rfl : .CUBE = k := by simpa [GroupModifier.keyword?] using hk
        exact hcube ⟨hkeys, rfl⟩
      | rollup =>
        obtain rfl : .ROLLUP = k := by simpa [GroupModifier.keyword?] using hk
        exact hQ.part rfl
    have hlist : Q (Token.commaList (keys.map GroupKey.tokens)) :=
      hQ.commaList (List.forall_mem_map.mpr fun k _ => hQ.field k.table k.field)
        (.inr (by simpa using hkeys))
    refine .pair (hQ.led rfl) ?_
    unfold Dialect.groupTokens
    split
    · exact hlist
    · rename_i k hk hstyle
      exact hQ.words (.word hlist (.pair (hwith hstyle) (hmodifier k hk)))
        (.inr (List.cons_ne_nil _ _))
    · rename_i k hk hstyle
      exact hQ.append (hmodifier k hk) (hQ.parens hlist)

theorem selectWords {distinct : Bool} {top : Option UInt64}
    (htop : ∀ k ∈ d.limitKeywords, Placed Q k) {p : List Token} (hp : Q p) :
    Led Q (Token.selectWords d distinct top ++ [p]) := by
  have hselect {ps : List (List Token)} (hne : ps ≠ []) (hps : Led Q ps) :
      Led Q ([keyword .SELECT] :: (wordIf distinct .DISTINCT ++ ps)) :=
    .lead (hQ.led rfl) (List.append_ne_nil_of_right_ne_nil _ hne) (.wordIf (hQ.led rfl) hne hps)
  have hplain (h : Token.selectWords d distinct top = [keyword .SELECT] ::
      wordIf distinct .DISTINCT) : Led Q (Token.selectWords d distinct top ++ [p]) := by
    rw [h]
    exact hselect (List.cons_ne_nil _ _) (.word hp .nil)
  cases top with
  | none => exact hplain (by cases d <;> simp [Token.selectWords, Dialect.topPlace])
  | some n =>
    cases d with
    | sqlServer =>
      have hwords : Token.selectWords .sqlServer distinct (some n) ++ [p] = [keyword .SELECT] ::
          (wordIf distinct .DISTINCT ++ [[keyword .TOP], [count n], p]) := by
        simp [Token.selectWords, Dialect.topPlace]
      have hlimit : Led Q [[keyword .TOP], [count n], p] :=
        .lead (htop .TOP (by decide)) (List.cons_ne_nil _ _)
          (.word (hQ.part rfl) (.word hp .nil))
      rw [hwords]
      exact hselect (List.cons_ne_nil _ _) hlimit
    | _ => exact hplain (by simp [Token.selectWords, Dialect.topPlace])

/-- The clause that limits the rows of a query. Oracle has no pages in it, as they are expanded. -/
theorem limitingWords {top : Option UInt64} {page : Option Page}
    (hlimit : ∀ k ∈ d.limitKeywords, Placed Q k) : Led Q (Token.limitingWords d top page) := by
  have hcount (n : UInt64) : Q [count n] := hQ.part rfl
  have hlimitWords (limit offset : Option UInt64) (h₁ : Leads Q .LIMIT) (h₂ : Leads Q .OFFSET) :
      Led Q (Dialect.limitWords limit offset) := by
    refine Led.append ?_ ?_
    · cases limit with
      | none => exact .nil
      | some n => exact .pair h₁ (hcount n)
    · cases offset with
      | none => exact .nil
      | some n => exact .pair h₂ (hcount n)
  cases d with
  | sqlServer => cases page <;> exact .nil
  | oracle =>
    have hwords : Token.limitingWords .oracle top page = Dialect.fetchWords top none := by
      cases page <;> rfl
    rw [hwords]
    cases top with
    | none => exact .nil
    | some n =>
      have hrows : Led Q [[count n], [keyword .ROWS], [keyword .ONLY]] :=
        .word (hcount n) (.word (hQ.part rfl) (.word (hlimit .ONLY (by decide)) .nil))
      exact .lead (hlimit .FETCH (by decide)) (List.cons_ne_nil _ _)
        (.lead (hQ.led rfl) (List.cons_ne_nil _ _) hrows)
  | mySql | postgres =>
    have h₁ : Leads Q .LIMIT := hlimit .LIMIT (by decide)
    have h₂ : Leads Q .OFFSET := hlimit .OFFSET (by decide)
    cases page with
    | none => exact hlimitWords top none h₁ h₂
    | some p => exact hlimitWords (some (p.limit top)) (some p.offset) h₁ h₂

end Token.Composed

theorem Token.Closed.sortKeys {Q : List Token → Prop} (hQ : Closed Q) (keys : List SortKey) :
    Q (Token.commaList (keys.map SortKey.tokens)) :=
  hQ.composed.sortKeys (.inl hQ.nil)

namespace Node

variable {d : Dialect} {Q : List Token → Prop} {n : Node}

/-- The pieces of a filled node have a composed property if its special keywords, its literals and,
where there is one, the operator on bits have it. -/
theorem composed_piecesHave (hQ : Composed Q) (hfilled : Q [] ∨ n.Filled d)
    (hkeywords : ∀ k ∈ n.keywords d, Placed Q k) (hliterals : ∀ c ∈ n.literals, Q [literal c])
    (hbits : d ≠ .oracle → Q [symbol .bitAnd]) : n.PiecesHave d Q := by
  cases n with
  | expr e =>
    cases e with
    | constant c => exact hliterals c List.mem_cons_self
    | rowNumber keys =>
      have horder : Leads Q .ORDER_BY := hkeywords _ List.mem_cons_self
      exact hQ.rowNumber horder hfilled
    | _ => trivial
  | predicate p =>
    cases p with
    | compare left op right =>
      cases op with
      | sharesBits => exact hbits
      | _ => trivial
    | inList e values negated => exact hliterals
    | _ => trivial
  | fromClause f =>
    refine fun j hj _ hne hps => hQ.joinTypeWords (fun hfull => ?_) hne hps
    exact hkeywords .FULL (List.mem_flatMap.mpr ⟨j, hj, by simp [hfull]⟩)
  | select q =>
    have hlimit : ∀ k ∈ d.limitKeywords, Placed Q k := fun k hk =>
      hkeywords k (by simp [keywords, hk])
    refine ⟨hQ.selectWords hlimit, hQ.groupWords (fun hd => ?_) (fun hcube => ?_), ?_,
      hQ.limitingWords hlimit⟩
    · exact hkeywords .WITH (by simp [keywords, hd])
    · exact hkeywords .CUBE (by simp [keywords, hcube])
    · exact hQ.orderWords fun horder => hkeywords .ORDER_BY (by simp [keywords, horder])
  | condition c | tableRef t => trivial

theorem closed_piecesHave (hQ : Closed Q) (hkeywords : ∀ k ∈ n.keywords d, Q [keyword k])
    (hliterals : ∀ c ∈ n.literals, Q [literal c]) (hbits : d ≠ .oracle → Q [symbol .bitAnd]) :
    n.PiecesHave d Q :=
  composed_piecesHave hQ.composed (.inl hQ.nil) (fun k hk => hQ.placed (hkeywords k hk)) hliterals
    hbits

end Node

end SqlTree
