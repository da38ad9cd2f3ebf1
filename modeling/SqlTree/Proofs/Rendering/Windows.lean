import SqlTree.Proofs.Rendering.Clauses
import SqlTree.Proofs.Rendering.Infixes
import SqlTree.Proofs.Rendering.Pages
import SqlTree.Proofs.Rendering.StatementPieces

/-!
# Orders below the top level

SQL Server takes an order inside of parentheses only in a window. The blocks that number the rows of
a page keep the order of the page on the outermost block; if the page is nested in another query,
that block stands in parentheses, and its order with it.

* `Token.OrdersInWindows`, `Token.DeepOrdersInWindows`: all orders, or all orders in parentheses,
  are those of windows;
* `Node.Unordered`: no query that is written in a node has an order.

Results:
* `Node.unordered_expandPages`: expanding pages neither adds an ordered query nor removes the last
  one.
* `Select.deepOrdersInWindows_tokens`: the order of a query itself is outside of parentheses.
* `Select.not_deepOrdersInWindows`: the order of a nested query is in parentheses and in no window.
* `Select.deepOrdersInWindows_iff`: so the orders in parentheses are all in windows exactly if no
  nested query has an order, be it that of a page.
-/

namespace SqlTree

open Token

/-! ## Windows -/

namespace Token

/-- The tokens in front of the order of a window. -/
def windowStart : List Token := [keyword .OVER, space, symbol .openParen]

/-- Every order in a list of tokens is that of a window. -/
def OrdersInWindows (ts : List Token) : Prop :=
  ∀ before after, ts = before ++ keyword .ORDER_BY :: after → windowStart <:+ before

/-- Every order inside of parentheses is that of a window. -/
def DeepOrdersInWindows (ts : List Token) : Prop :=
  ∀ before after, ts = before ++ keyword .ORDER_BY :: after →
    before.count (symbol .closeParen) < before.count (symbol .openParen) → windowStart <:+ before

/-- A token in a list that is joined of two stands in the first one or in the second one. -/
theorem split_append {t : Token} {ts us before after : List Token}
    (h : ts ++ us = before ++ t :: after) :
    (∃ rest, ts = before ++ t :: rest) ∨
      ∃ middle, before = ts ++ middle ∧ us = middle ++ t :: after := by
  rcases List.append_eq_append_iff.mp h with ⟨middle, hbefore, hus⟩ | ⟨rest, hts, hafter⟩
  · exact .inr ⟨middle, hbefore, hus⟩
  · cases rest with
    | nil => exact .inr ⟨[], by simpa using hts.symm, by simpa using hafter.symm⟩
    | cons u rest =>
      obtain ⟨rfl, -⟩ := List.cons_eq_cons.mp hafter
      exact .inl ⟨rest, hts⟩

theorem closed_ordersInWindows : Closed OrdersInWindows where
  nil := by simp [OrdersInWindows]
  append := by
    intro ts us hts hus before after h
    rcases split_append h with ⟨rest, hrest⟩ | ⟨middle, rfl, hmiddle⟩
    · exact hts before rest hrest
    · exact (hus middle after hmiddle).trans (List.suffix_append ts middle)
  plain := by
    intro t ht before after h
    cases before with
    | nil =>
      obtain ⟨rfl, -⟩ := List.cons_eq_cons.mp h
      exact absurd ht (by decide)
    | cons b before => simp at h

theorem ordersInWindows_window {rest : List Token} (h : OrdersInWindows rest) :
    OrdersInWindows (windowStart ++ keyword .ORDER_BY :: rest) := by
  intro before after hsplit
  rcases split_append hsplit with ⟨rest', hrest⟩ | ⟨middle, rfl, hmiddle⟩
  · have hmem : keyword .ORDER_BY ∈ windowStart := by simp [hrest]
    exact absurd hmem (by decide)
  · cases middle with
    | nil => simp
    | cons t middle =>
      obtain ⟨-, hrest⟩ := List.cons_eq_cons.mp hmiddle
      have hsuffix := h middle after hrest
      exact (hsuffix.trans (List.suffix_cons t middle)).trans (List.suffix_append _ _)

theorem ordersInWindows_rowNumber (d : Dialect) (keys : List SortKey) :
    OrdersInWindows ((Expr.rowNumber keys).tokens d) := by
  have hQ := closed_ordersInWindows
  have htokens : (Expr.rowNumber keys).tokens d =
      (Token.function "ROW_NUMBER" :: parens [] ++ [space]) ++ (windowStart ++ keyword .ORDER_BY ::
        (space :: commaList (keys.map SortKey.tokens) ++ [symbol .closeParen])) := by
    simp [Expr.tokens, words, List.intercalate, parens, windowStart]
  rw [htokens]
  refine hQ.append (hQ.of_plain (by decide)) (ordersInWindows_window ?_)
  exact hQ.append (hQ.cons rfl (hQ.sortKeys keys)) (hQ.plain rfl)

end Token

/-! ## Nodes without ordered queries -/

namespace Node

/-- No query that is written in a node has an order. -/
def Unordered (n : Node) : Prop := ∀ q, n.Writes (select q) → q.orderBy = []

theorem unordered_iff {n : Node} :
    n.Unordered ↔ (∀ q, n = select q → q.orderBy = []) ∧ ∀ c ∈ n.written, c.Unordered := by
  constructor
  · intro h
    refine ⟨?_, fun c hc q hq => h q (.descend hc hq)⟩
    rintro q rfl
    exact h q (.self _)
  · rintro ⟨hself, hwritten⟩ q hq
    cases hq with
    | self => exact hself q rfl
    | descend hc h => exact hwritten _ hc q h

/-- An expanded node that is no query writes the expanded trees. -/
theorem written_expandPages {n : Node} (h : ∀ q, n ≠ select q) :
    n.expandPages.written = n.written.map expandPages := by
  cases n with
  | expr e => exact Expr.nodes_expandPages e
  | predicate p =>
    cases p with
    | inList e values negated => cases values <;> rfl
    | _ => exact children_expandPages h
  | condition c =>
    obtain ⟨connective, predicates, groups⟩ := c
    simp [expandPages, written, Condition.expandPages, List.filter_map, Function.comp_def,
      Condition.isEmpty_expandPages]
  | tableRef t => exact children_expandPages h
  | fromClause f => exact children_expandPages h
  | select q => exact absurd rfl (h q)

theorem written_expandParts (q : Select) :
    (select q.expandParts).written = (select q).written.map expandPages := by
  have hsource : q.source.expandPages.isEmpty = q.source.isEmpty := by
    obtain ⟨base, joins⟩ := q.source
    cases base <;> rfl
  simp only [written, Select.expandParts, hsource, Condition.isEmpty_expandPages]
  cases q.source.isEmpty <;> cases q.filter.isEmpty <;> cases q.having.isEmpty <;>
    simp [expandPages, SelectItem.expandPages]

theorem expandPages_ne_select {n : Node} (h : ∀ q, n ≠ select q) (q : Select) :
    n.expandPages ≠ select q := by
  cases n with
  | select q => exact absurd rfl (h q)
  | _ => simp [expandPages]

theorem unordered_map_expandPages {ns : List Node}
    (ih : ∀ c ∈ ns, (c.expandPages.Unordered ↔ c.Unordered)) :
    (∀ c ∈ ns.map expandPages, c.Unordered) ↔ ∀ c ∈ ns, c.Unordered := by
  rw [List.forall_mem_map]
  exact forall₂_congr fun c hc => ih c hc

theorem unordered_expandParts {q : Select}
    (ih : ∀ c ∈ (select q).written, (c.expandPages.Unordered ↔ c.Unordered)) :
    (select q.expandParts).Unordered ↔ (select q).Unordered := by
  rw [unordered_iff, unordered_iff, written_expandParts, unordered_map_expandPages ih]
  have horder : (∀ r, select q.expandParts = select r → r.orderBy = []) ↔
      ∀ r, select q = select r → r.orderBy = [] := by
    simp [Select.expandParts]
  rw [horder]

theorem not_unordered {q : Select} (h : q.orderBy ≠ []) : ¬(select q).Unordered :=
  fun hq => h (hq q (.self _))

/-- Expanding pages neither adds an ordered query nor removes the last one. -/
theorem unordered_expandPages (n : Node) : n.expandPages.Unordered ↔ n.Unordered := by
  induction n using Node.induction with
  | step n ih =>
    have ih : ∀ c ∈ n.written, (c.expandPages.Unordered ↔ c.Unordered) := fun c hc =>
      ih c (written_subset_children n hc)
    by_cases hn : ∃ q, n = select q
    · obtain ⟨q, rfl⟩ := hn
      show (select q.expandPages).Unordered ↔ (select q).Unordered
      cases hp : q.page with
      | none =>
        rw [Select.expandPages_of_page_eq_none hp]
        exact unordered_expandParts ih
      | some p =>
        by_cases ho : q.orderBy = []
        · rw [Select.expandPages_of_orderBy_eq_nil ho]
          exact unordered_expandParts ih
        · -- The outer block is ordered like the query.
          have hnames : q.expandParts.sortNames ≠ [] := by
            intro hnil
            have hlength := Select.length_sortNames q.expandParts
            rw [hnil] at hlength
            exact ho (List.length_eq_zero_iff.mp hlength.symm)
          have hblocks : (q.expandParts.numberedBlocks p).orderBy ≠ [] := by
            rw [Select.numberedBlocks_eq]
            simpa [Select.outerBlock, sortKeysOf] using hnames
          rw [Select.expandPages_of_page hp ho]
          exact iff_of_false (not_unordered hblocks) (not_unordered ho)
    · have hn : ∀ q, n ≠ select q := fun q hq => hn ⟨q, hq⟩
      rw [unordered_iff, unordered_iff, written_expandPages hn, unordered_map_expandPages ih]
      simp [hn, expandPages_ne_select hn]

theorem piecesHave_ordersInWindows {d : Dialect} {n : Node}
    (h : ∀ q, n = select q → q.orderBy = []) : n.PiecesHave d OrdersInWindows := by
  have hQ := closed_ordersInWindows
  have hother {t : Token} (ht : t ≠ keyword .ORDER_BY) : OrdersInWindows [t] := by
    intro before after hsplit
    cases before with
    | nil => exact absurd (List.cons_eq_cons.mp hsplit).1 ht
    | cons b before => simp at hsplit
  by_cases hwindow : ∃ keys, n = expr (.rowNumber keys)
  · obtain ⟨keys, rfl⟩ := hwindow
    exact ordersInWindows_rowNumber d keys
  · refine closed_piecesHave hQ (fun k hk => hother ?_) (fun c _ => hother (by simp))
      fun _ => hother (by simp)
    rintro ⟨⟩
    cases n with
    | expr e =>
      cases e with
      | rowNumber keys => exact hwindow ⟨keys, rfl⟩
      | _ => simp [keywords] at hk
    | fromClause f =>
      obtain ⟨j, -, hj⟩ := List.mem_flatMap.mp hk
      split at hj <;> simp at hj
    | select q =>
      have horder : q.orderBy = [] := h q rfl
      have hlimit : Keyword.ORDER_BY ∉ d.limitKeywords := by cases d <;> decide
      simp only [keywords, horder, List.mem_append] at hk
      grind
    | _ => simp [keywords] at hk

/-- If no query that is written in a node has an order, all its orders are in windows. -/
theorem tokensHave_ordersInWindows {d : Dialect} {n : Node} (h : n.Unordered) :
    n.TokensHave d OrdersInWindows := by
  refine tokensHave_of_writes closed_ordersInWindows fun m hm => ?_
  refine piecesHave_ordersInWindows ?_
  rintro q rfl
  exact h q hm

end Node

namespace Select

/-! ## Queries for SQL Server -/

/-- A query without its order. -/
def withoutOrder (q : Select) : Select := { q with orderBy := [] }

/-- For SQL Server, which limits rows in front of the columns, the order of a query comes last. -/
theorem tokens_of_orderBy {q : Select} (h : q.orderBy ≠ []) :
    q.tokens .sqlServer = q.withoutOrder.tokens .sqlServer ++
      space :: keyword .ORDER_BY :: space :: commaList (q.orderBy.map SortKey.tokens) := by
  obtain ⟨items, source, filter, groupBy, groupModifier, having, orderBy, distinct, top, page,
    tableSpace⟩ := q
  have hlimit : limitingWords .sqlServer top page = [] := by cases page <;> rfl
  have horder : orderWords orderBy =
      [[keyword .ORDER_BY], commaList (orderBy.map SortKey.tokens)] := by
    rw [orderWords, if_neg (by simpa using h)]
  have hnone : orderWords [] = [] := rfl
  rw [withoutOrder, Select.tokens, Select.tokens, hlimit, horder, hnone, List.append_nil,
    List.append_nil, List.append_nil,
    Outline.words_append_of_ne_nil (by simp [selectWords]) (by simp)]
  simp [words, List.intercalate]

theorem balanced_tokens (d : Dialect) (q : Select) : Balanced (q.tokens d) := by
  obtain ⟨ks, -, hks⟩ := q.outline_tokens d
  exact hks.balanced

/-- If no query inside a query has an order, the orders in parentheses are all in windows: the order
of the query itself is in none. -/
theorem deepOrdersInWindows_tokens {q : Select}
    (h : ∀ c ∈ (Node.select q).written, c.Unordered) :
    DeepOrdersInWindows (q.tokens .sqlServer) := by
  have hbare : OrdersInWindows (q.withoutOrder.tokens .sqlServer) := by
    refine Node.tokensHave_ordersInWindows (n := .select _) (Node.unordered_iff.mpr ⟨?_, h⟩)
    rintro r ⟨⟩
    rfl
  intro before after hsplit hdeep
  by_cases ho : q.orderBy = []
  · have hsame : q.withoutOrder = q := by
      cases q
      simp_all [withoutOrder]
    rw [hsame] at hbare
    exact hbare before after hsplit
  · rw [tokens_of_orderBy ho] at hsplit
    rcases split_append hsplit with ⟨rest, hrest⟩ | ⟨middle, rfl, hmiddle⟩
    · exact hbare before rest hrest
    · cases middle with
      | nil => simp at hmiddle
      | cons t middle =>
        obtain ⟨rfl, horder⟩ := List.cons_eq_cons.mp hmiddle
        cases middle with
        | nil =>
          have hcount := (balanced_tokens .sqlServer q.withoutOrder).count_eq
          simp [hcount] at hdeep
        | cons u middle =>
          obtain ⟨-, hkeys⟩ := List.cons_eq_cons.mp horder
          have hplain : OrdersInWindows (space :: commaList (q.orderBy.map SortKey.tokens)) :=
            closed_ordersInWindows.cons rfl (closed_ordersInWindows.sortKeys q.orderBy)
          have hsuffix := hplain middle after hkeys
          exact hsuffix.trans ((List.suffix_cons u middle).trans
            ((List.suffix_cons space _).trans (List.suffix_append _ _)))

/-- The order of a query inside a query is in parentheses and in no window. -/
theorem not_deepOrdersInWindows {q m : Select} {c : Node} (hc : c ∈ (Node.select q).written)
    (hm : c.Writes (.select m)) (ho : m.orderBy ≠ []) :
    ¬DeepOrdersInWindows (q.tokens .sqlServer) := by
  intro h
  obtain ⟨front, back, hsplit⟩ := Node.infix_select hc (Node.shows_parens_of_writes hm)
  rw [tokens_of_orderBy ho] at hsplit
  let bare : List Token := m.withoutOrder.tokens .sqlServer
  let before : List Token := front ++ symbol .openParen :: bare ++ [space]
  let after : List Token := space :: commaList (m.orderBy.map SortKey.tokens) ++
    symbol .closeParen :: back
  have hbefore : q.tokens .sqlServer = before ++ keyword .ORDER_BY :: after := by
    rw [← hsplit]
    simp [before, after, bare, parens]
  have hfront : front.count (symbol .closeParen) ≤ front.count (symbol .openParen) :=
    (balanced_tokens .sqlServer q).count_le front ⟨_, by rw [← hsplit, List.append_assoc]⟩
  have hbare : bare.count (symbol .closeParen) = bare.count (symbol .openParen) :=
    (balanced_tokens .sqlServer m.withoutOrder).count_eq
  have hdeep : before.count (symbol .closeParen) < before.count (symbol .openParen) := by
    simp [before, hbare]
    omega
  -- A window opens with a parenthesis, and the order of a query follows a space.
  obtain ⟨start, hstart⟩ := h before after hbefore hdeep
  have hlast : before.getLast? = some space := List.getLast?_concat
  rw [← hstart] at hlast
  simp [windowStart] at hlast

/-! ## The blocks of a page -/

theorem unordered_ofQuery {q : Select} {aliasName : String} (h : (Node.select q).Unordered) :
    (Node.fromClause (.ofQuery q aliasName)).Unordered := by
  have hsource : (Node.tableRef ⟨.query q, some aliasName⟩).Unordered :=
    Node.unordered_iff.mpr ⟨nofun, List.forall_mem_singleton.mpr h⟩
  exact Node.unordered_iff.mpr ⟨nofun, List.forall_mem_singleton.mpr hsource⟩

theorem unordered_of_nodes_eq_nil {e : Expr} (h : e.nodes = []) : (Node.expr e).Unordered :=
  Node.unordered_iff.mpr ⟨nofun, by simp [Node.written, Node.children, h]⟩

theorem unordered_innerBlock {q : Select} (h : ∀ c ∈ (Node.select q).written, c.Unordered) :
    (Node.select (q.innerBlock q.innerItems)).Unordered := by
  refine Node.unordered_iff.mpr ⟨by rintro r ⟨⟩; rfl, fun c hc => ?_⟩
  simp only [Node.written, innerBlock, List.mem_append, List.mem_map] at hc h
  rcases hc with ((⟨i, hi, rfl⟩ | hc) | hc) | hc
  · rcases exists_expr_of_mem_innerItems hi with ⟨j, hj, he⟩ | ⟨table, name, he⟩
    · rw [he]
      exact h _ (.inl (.inl (.inl ⟨j, hj, rfl⟩)))
    · rw [he]
      exact unordered_of_nodes_eq_nil rfl
  · exact h c (.inl (.inl (.inr hc)))
  · exact h c (.inl (.inr hc))
  · exact h c (.inr hc)

theorem unordered_middleBlock {inner : Select} {names : List (String × SortDirection)}
    (h : (Node.select inner).Unordered) : (Node.select (middleBlock inner names)).Unordered := by
  refine Node.unordered_iff.mpr ⟨by rintro r ⟨⟩; rfl, ?_⟩
  exact List.forall_mem_cons.mpr ⟨unordered_of_nodes_eq_nil rfl,
    forall_mem_pair.mpr ⟨unordered_of_nodes_eq_nil rfl, unordered_ofQuery h⟩⟩

theorem unordered_rowsBetween (first last : UInt64) :
    (Node.condition (rowsBetween first last)).Unordered := by
  have hbetween : ∀ c ∈ (Node.condition (rowsBetween first last)).written, c.Unordered := by
    refine List.forall_mem_singleton.mpr (Node.unordered_iff.mpr ⟨nofun, ?_⟩)
    exact List.forall_mem_cons.mpr ⟨unordered_of_nodes_eq_nil rfl,
      forall_mem_pair.mpr ⟨unordered_of_nodes_eq_nil rfl, unordered_of_nodes_eq_nil rfl⟩⟩
  exact Node.unordered_iff.mpr ⟨nofun, hbetween⟩

/-- Of the blocks of a page only the outermost one is ordered, if nothing in the query is. -/
theorem unordered_of_mem_written_numberedBlocks {q : Select} (p : Page)
    (h : ∀ c ∈ (Node.select q).written, c.Unordered) :
    ∀ c ∈ (Node.select (q.numberedBlocks p)).written, c.Unordered := by
  intro c hc
  rw [numberedBlocks_eq] at hc
  simp only [Node.written, outerBlock, List.mem_append, List.mem_map] at hc
  rcases hc with ((⟨i, hi, rfl⟩ | hc) | hc) | hc
  · rcases expr_of_mem_outerItems hi with ⟨table, he⟩ | ⟨table, name, he⟩
    · rw [he]
      exact unordered_of_nodes_eq_nil rfl
    · rw [he]
      exact unordered_of_nodes_eq_nil rfl
  · obtain rfl := List.mem_singleton.mp hc
    exact unordered_ofQuery (unordered_middleBlock (unordered_innerBlock h))
  · obtain rfl := List.mem_singleton.mp hc
    exact unordered_rowsBetween p.first (p.last q.top)
  · simp [empty, Condition.empty, Condition.isEmpty, Condition.allEmpty] at hc

/-- The query that is run for the page of a query has a nested order only if the query has one. -/
theorem unordered_of_mem_written_paged {d : Dialect} {q r : Select} (hq : q.violations = [])
    (hr : q.paged d = .ok r) (h : ∀ c ∈ (Node.select q).written, c.Unordered) :
    ∀ c ∈ (Node.select r).written, c.Unordered := by
  rw [paged_of_violations_eq_nil d hq] at hr
  split at hr
  · cases hp : q.page with
    | none =>
      rw [numberedBlocks?_of_page_eq_none hp] at hr
      obtain rfl := Except.ok.inj hr
      exact h
    | some p =>
      rw [numberedBlocks?_of_page hp (orderBy_ne_nil hq hp)] at hr
      obtain rfl := Except.ok.inj hr
      exact unordered_of_mem_written_numberedBlocks p h
  · obtain rfl := Except.ok.inj hr
    exact h

end Select

/-! ## Nested queries with pages -/

/-- A node is a query with a page, if it is a query with an order. -/
def Node.PagedIfOrdered : Node → Prop
  | select q => q.orderBy ≠ [] → q.page ≠ none
  | _ => True

namespace Node

theorem pagedIfOrdered_of_contains_secondPage :
    ∀ n, (select .secondPage).Contains n → n.PagedIfOrdered := by
  have hempty : ∀ n, (condition .empty).Contains n → n.PagedIfOrdered :=
    forall_contains_of_children_eq_nil trivial rfl
  have hfield : ∀ n, (expr (.field (some "orders") "id")).Contains n → n.PagedIfOrdered :=
    forall_contains_of_children_eq_nil trivial rfl
  have htable : ∀ n, (tableRef ⟨.table "orders" none, none⟩).Contains n → n.PagedIfOrdered :=
    forall_contains_of_children_eq_nil trivial rfl
  have hsource : ∀ n, (fromClause ⟨some ⟨.table "orders" none, none⟩, []⟩).Contains n →
      n.PagedIfOrdered :=
    forall_contains trivial (List.forall_mem_singleton.mpr htable)
  refine forall_contains (fun _ => Option.some_ne_none _) ?_
  exact List.forall_mem_cons.mpr ⟨hfield, List.forall_mem_cons.mpr
    ⟨hsource, forall_mem_pair.mpr ⟨hempty, hempty⟩⟩⟩

end Node

/-! ## Rendering -/

theorem Statement.render_sqlServer {s : Statement} (h : s.violations = []) :
    s.render .sqlServer = .ok (s.tokens .sqlServer) := by
  rw [Statement.render_eq]
  cases hs : s.obstacles .sqlServer with
  | nil => rfl
  | cons e es =>
    have he : e ∈ s.obstacles .sqlServer := by simp [hs]
    obtain ⟨f, hf, -⟩ := Statement.exists_uses_of_mem_obstacles h he
    simp [Dialect.lacked] at hf

/-- A valid query renders for SQL Server. If no query that is nested in it has an order, its orders
in parentheses are all those of windows, also where they number the rows of a page. In general they
are so exactly if no nested query has an order in the query that is run for its page: the order of
a nested page stays on the blocks that the page becomes. -/
theorem Select.deepOrdersInWindows_iff {q : Select} (h : (Statement.select q).validate = .ok ()) :
    ∃ r ts, q.paged .sqlServer = .ok r ∧ (Statement.select q).render .sqlServer = .ok ts ∧
      ((∀ c ∈ (Node.select q).written, c.Unordered) → DeepOrdersInWindows ts) ∧
      (DeepOrdersInWindows ts ↔ ∀ c ∈ (Node.select r).written, c.Unordered) := by
  have hvalid := Statement.validate_eq_ok_iff.mp h
  obtain ⟨r, hr, hsame, hpage⟩ := exists_paged_and_forDialect_eq .sqlServer hvalid
  have htokens : (Statement.select q).tokens .sqlServer = r.expandParts.tokens .sqlServer := by
    show (q.forDialect .sqlServer).tokens .sqlServer = _
    rw [← hsame]
    exact congrArg (Select.tokens .sqlServer) (expandPages_of_page_eq_none (hpage rfl))
  have hnested : (∀ c ∈ (Node.select r.expandParts).written, c.Unordered) ↔
      ∀ c ∈ (Node.select r).written, c.Unordered := by
    rw [Node.written_expandParts]
    exact Node.unordered_map_expandPages fun c _ => Node.unordered_expandPages c
  have hiff : DeepOrdersInWindows ((Statement.select q).tokens .sqlServer) ↔
      ∀ c ∈ (Node.select r).written, c.Unordered := by
    rw [htokens, ← hnested]
    refine ⟨fun hdeep c hc m hm => ?_, deepOrdersInWindows_tokens⟩
    exact Classical.byContradiction fun ho => not_deepOrdersInWindows hc hm ho hdeep
  refine ⟨r, _, hr, Statement.render_sqlServer hvalid, fun hq => ?_, hiff⟩
  exact hiff.mpr (unordered_of_mem_written_paged hvalid hr hq)

/-- The order of a page that is not nested is in a window and on the top level. -/
theorem Select.deepOrdersInWindows_secondPage :
    (Statement.select secondPage).validate = .ok () ∧
    (∀ c ∈ (Node.select secondPage).written, c.Unordered) ∧
    ∃ ts, (Statement.select secondPage).render .sqlServer = .ok ts ∧
      Token.keyword .ORDER_BY ∈ ts ∧ DeepOrdersInWindows ts := by
  have hvalid : (Statement.select secondPage).validate = .ok () := rfl
  have htable : (Node.fromClause secondPage.source).Unordered := by
    refine Node.unordered_iff.mpr ⟨nofun, List.forall_mem_singleton.mpr ?_⟩
    exact Node.unordered_iff.mpr ⟨nofun, nofun⟩
  have hunordered : ∀ c ∈ (Node.select secondPage).written, c.Unordered :=
    forall_mem_pair.mpr ⟨unordered_of_nodes_eq_nil rfl, htable⟩
  have hrender := Statement.render_sqlServer (Statement.validate_eq_ok_iff.mp hvalid)
  obtain ⟨r, ts, -, hts, hwindows, -⟩ := deepOrdersInWindows_iff hvalid
  obtain rfl := Except.ok.inj (hrender.symm.trans hts)
  exact ⟨hvalid, hunordered, _, hts, by decide +kernel, hwindows hunordered⟩

namespace Select

/-- A query on the second page of another query. -/
def onSecondPage : Select := { empty with source := .ofQuery secondPage "page" }

/-- A page inside of a valid query keeps its order there, in no window, although every query that is
nested and has an order has a page. -/
theorem not_deepOrdersInWindows_onSecondPage :
    (Statement.select onSecondPage).validate = .ok () ∧
    (∀ c ∈ (Node.select onSecondPage).children, ∀ n, c.Contains n → n.PagedIfOrdered) ∧
    ∃ ts, (Statement.select onSecondPage).render .sqlServer = .ok ts ∧
      ¬DeepOrdersInWindows ts := by
  let ts := (Statement.select onSecondPage).tokens .sqlServer
  refine ⟨rfl, ?_, ts, Statement.render_sqlServer rfl, fun h => ?_⟩
  · have hempty : ∀ n, (Node.condition .empty).Contains n → n.PagedIfOrdered :=
      Node.forall_contains_of_children_eq_nil trivial rfl
    have hpage : ∀ n, (Node.tableRef ⟨.query secondPage, some "page"⟩).Contains n →
        n.PagedIfOrdered :=
      Node.forall_contains trivial
        (List.forall_mem_singleton.mpr Node.pagedIfOrdered_of_contains_secondPage)
    refine List.forall_mem_cons.mpr ⟨?_, forall_mem_pair.mpr ⟨hempty, hempty⟩⟩
    exact Node.forall_contains trivial (List.forall_mem_singleton.mpr hpage)
  · -- The tokens before the second order end in a space.
    have hsplit : ts = ts.take 85 ++ keyword .ORDER_BY :: ts.drop 86 := by decide +kernel
    have hstart := h (ts.take 85) (ts.drop 86) hsplit (by decide +kernel)
    exact absurd hstart (by decide +kernel)

end Select

end SqlTree
