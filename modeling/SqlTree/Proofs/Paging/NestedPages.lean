import SqlTree.Proofs.Rendering.Pages
import SqlTree.Proofs.Tree.Measures
import SqlTree.Proofs.Tree.Visits

/-!
# Pages inside pages

A query with a page is written by writing its blocks, in which there may be further pages, and these
are written by writing their blocks again. The blocks are a larger tree than the query, so it is not
the size of the tree that ends this. But each page is in the blocks at most once, and that of the
query is gone.

* `Select.droppedItems`: the columns of a query that are not in its blocks.
* `outsideIn`: the expansion of pages from the outside in, up to a depth: a query with a page is
  expanded by expanding its blocks, and any other tree by expanding those right below it.

Results:
* `Select.pageCount_numberedBlocks`: the blocks of a query have all its pages but its own and those
  in the columns that are dropped.
* `Select.nodeCount_lt_numberedBlocks`: they are a larger tree if no column is dropped.
* `Select.height_numberedBlocks_le`: they are higher by six nodes at most.
* `Node.not_keepsPage`: no page of a valid tree is left when its pages are expanded.
* `outsideIn_settles`: a depth that is sufficient for the height and the pages of a tree.
* `Select.pageCount_lt_and_outsideIn_ends`: the pages become fewer, and the expansion ends.
-/

namespace SqlTree

namespace Node

/-! ## Measures of small trees -/

theorem children_of_isColumn {e : Expr} (h : e.isColumn = true) : (expr e).children = [] := by
  cases e with
  | field | star => rfl
  | _ => simp [Expr.isColumn] at h

theorem pageCount_of_isColumn {e : Expr} (h : e.isColumn = true) : (expr e).pageCount = 0 := by
  rw [pageCount_eq, children_of_isColumn h]
  rfl

theorem height_of_isColumn {e : Expr} (h : e.isColumn = true) : (expr e).height = 1 :=
  height_eq_one (children_of_isColumn h)

theorem children_ofQuery (q : Select) (aliasName : String) :
    (fromClause (.ofQuery q aliasName)).children = [tableRef ⟨.query q, some aliasName⟩] := rfl

theorem children_tableRef_query (q : Select) (aliasName : Option String) :
    (tableRef ⟨.query q, aliasName⟩).children = [select q] := rfl

theorem pageCount_ofQuery (q : Select) (aliasName : String) :
    (fromClause (.ofQuery q aliasName)).pageCount = (select q).pageCount := by
  have hfrom : ownPages (fromClause (.ofQuery q aliasName)) = 0 := rfl
  have htable : ownPages (tableRef ⟨.query q, some aliasName⟩) = 0 := rfl
  rw [pageCount_eq, children_ofQuery, List.map_singleton, List.sum_singleton, hfrom, pageCount_eq,
    children_tableRef_query, List.map_singleton, List.sum_singleton, htable, Nat.zero_add,
    Nat.zero_add]

theorem height_ofQuery_le {q : Select} {aliasName : String} {k : Nat} (h : (select q).height ≤ k) :
    (fromClause (.ofQuery q aliasName)).height ≤ k + 2 := by
  rw [height_le_iff, children_ofQuery, List.forall_mem_singleton, height_le_iff,
    children_tableRef_query, List.forall_mem_singleton]
  exact h

theorem nodeCount_lt_ofQuery (q : Select) (aliasName : String) :
    (select q).nodeCount < (fromClause (.ofQuery q aliasName)).nodeCount :=
  Nat.lt_trans (nodeCount_lt_of_mem_children (n := tableRef ⟨.query q, some aliasName⟩)
    List.mem_cons_self) (nodeCount_lt_of_mem_children List.mem_cons_self)

theorem pageCount_empty : (condition .empty).pageCount = 0 := by
  rw [pageCount_eq]
  rfl

theorem height_empty : (condition .empty).height = 1 := height_eq_one rfl

theorem mem_children_source (q : Select) : fromClause q.source ∈ (select q).children :=
  List.mem_append_right _ List.mem_cons_self

end Node

namespace Select

/-! ## Columns -/

/-- The columns of a query that are named like the row numbers. -/
def droppedItems (q : Select) : List SelectItem := q.items.filter (·.isNamed rowNumberName)

/-- A sum over the columns of a query has two parts, as some of them are dropped. -/
theorem sum_items_eq (f : Expr → Nat) (q : Select) :
    (q.items.map fun i => f i.expr).sum =
      (q.droppedItems.map fun i => f i.expr).sum +
        ((withoutRowNumber q.items).map fun i => f i.expr).sum := by
  have hperm : (q.droppedItems ++ withoutRowNumber q.items).Perm q.items :=
    List.filter_append_perm (fun i : SelectItem => i.isNamed rowNumberName) q.items
  rw [← List.sum_append, ← List.map_append]
  exact ((hperm.map _).sum_eq).symm

/-- The inner block has the columns of the query that are not dropped, and fields. -/
theorem exists_sum_innerItems_eq (f : Expr → Nat) (q : Select) :
    ∃ added : List SelectItem, (∀ i ∈ added, i.expr.isColumn = true) ∧
      (q.innerItems.map fun i => f i.expr).sum =
        ((withoutRowNumber q.items).map fun i => f i.expr).sum +
          (added.map fun i => f i.expr).sum := by
  obtain ⟨added, happend, hadded⟩ := placeSortKeys_fst q.shownItems q.orderBy
  have hfields : ∀ i ∈ added, i.expr.isColumn = true := by
    intro i hi
    obtain ⟨k, -, hk⟩ := hadded i hi
    rw [hk.expr_eq]
    rfl
  have hshown : q.shownItems.map (fun i => f i.expr) =
      (withoutRowNumber q.items).map fun i => f i.expr := by
    have hexprs := congrArg (List.map f) q.map_expr_shownItems
    rwa [List.map_map, List.map_map] at hexprs
  refine ⟨added, hfields, ?_⟩
  rw [innerItems, happend, List.map_append, List.sum_append, hshown]

theorem isColumn_of_mem_outerItems {shown : List SelectItem} {i : SelectItem}
    (hi : i ∈ outerItems shown) : i.expr.isColumn = true := by
  rcases expr_of_mem_outerItems hi with ⟨table, he⟩ | ⟨table, name, he⟩ <;> rw [he] <;> rfl

/-! ## Pages of the blocks -/

theorem pageCount_outerBlock (middle : Select) (shown : List SelectItem)
    (names : List (String × SortDirection)) (first last : UInt64) :
    (Node.select (outerBlock middle shown names first last)).pageCount =
      (Node.select middle).pageCount := by
  have hitems : ((outerItems shown).map fun i => (Node.expr i.expr).pageCount).sum = 0 :=
    List.sum_eq_zero (List.forall_mem_map.mpr fun i hi =>
      Node.pageCount_of_isColumn (isColumn_of_mem_outerItems hi))
  have hfilter : (Node.condition (rowsBetween first last)).pageCount = 0 := by
    simp [Node.pageCount_eq, Node.children, rowsBetween, Predicate.nodes, Expr.nodes, countExpr,
      Node.ownPages]
  rw [Node.pageCount_select, outerBlock, hitems, hfilter, Node.pageCount_ofQuery, empty,
    Node.pageCount_empty, Node.ownPages]
  simp

theorem pageCount_middleBlock (inner : Select) (names : List (String × SortDirection)) :
    (Node.select (middleBlock inner names)).pageCount = (Node.select inner).pageCount := by
  have hnumber : (Node.expr (.rowNumber (sortKeysOf wrapperName names))).pageCount = 0 := by
    rw [Node.pageCount_eq]
    rfl
  have hall : (Node.expr (allColumnsOf wrapperName).expr).pageCount = 0 :=
    Node.pageCount_of_isColumn rfl
  rw [Node.pageCount_select, middleBlock, Node.pageCount_ofQuery, empty, Node.pageCount_empty,
    Node.ownPages]
  simp [hnumber, hall]

/-- The inner block has the pages of the query apart from its own and those of dropped columns. -/
theorem pageCount_innerBlock (q : Select) :
    Node.ownPages (.select q) + (q.droppedItems.map fun i => (Node.expr i.expr).pageCount).sum +
      (Node.select (q.innerBlock q.innerItems)).pageCount = (Node.select q).pageCount := by
  obtain ⟨added, hfields, hsum⟩ :=
    exists_sum_innerItems_eq (fun e => (Node.expr e).pageCount) q
  have hadded : (added.map fun i => (Node.expr i.expr).pageCount).sum = 0 :=
    List.sum_eq_zero (List.forall_mem_map.mpr fun i hi => Node.pageCount_of_isColumn (hfields i hi))
  have hown : Node.ownPages (.select (q.innerBlock q.innerItems)) = 0 := rfl
  rw [Node.pageCount_select q, Node.pageCount_select, hown,
    sum_items_eq (fun e => (Node.expr e).pageCount) q]
  simp only [innerBlock, hsum, hadded]
  omega

/-- The blocks of a query have its pages once, apart from its own and those of dropped columns. -/
theorem pageCount_numberedBlocks {q : Select} {p : Page} (hp : q.page = some p) :
    1 + (q.droppedItems.map fun i => (Node.expr i.expr).pageCount).sum +
      (Node.select (q.numberedBlocks p)).pageCount = (Node.select q).pageCount := by
  rw [← q.pageCount_innerBlock, Node.ownPages_of_page hp, numberedBlocks_eq, pageCount_outerBlock,
    pageCount_middleBlock]

/-! ## Size of the blocks -/

/-- The blocks are a larger tree than the query if no column is dropped. -/
theorem nodeCount_lt_numberedBlocks {q : Select} (p : Page)
    (h : ∀ i ∈ q.items, i.isNamed rowNumberName = false) :
    (Node.select q).nodeCount < (Node.select (q.numberedBlocks p)).nodeCount := by
  have hinner :
      (Node.select q).nodeCount ≤ (Node.select (q.innerBlock q.innerItems)).nodeCount := by
    obtain ⟨added, -, hsum⟩ := exists_sum_innerItems_eq (fun e => (Node.expr e).nodeCount) q
    have hkept : withoutRowNumber q.items = q.items :=
      List.filter_eq_self.mpr fun i hi => by simp [h i hi]
    rw [hkept] at hsum
    rw [Node.nodeCount_eq, Node.nodeCount_eq]
    simp only [Node.children, List.map_append, List.map_map, Function.comp_def, List.sum_append,
      innerBlock, hsum]
    omega
  calc (Node.select q).nodeCount
    _ ≤ (Node.select (q.innerBlock q.innerItems)).nodeCount := hinner
    _ < (Node.fromClause (.ofQuery (q.innerBlock q.innerItems) wrapperName)).nodeCount :=
      Node.nodeCount_lt_ofQuery _ _
    _ < (Node.select (middleBlock (q.innerBlock q.innerItems) q.sortNames)).nodeCount :=
      Node.nodeCount_lt_of_mem_children (Node.mem_children_source _)
    _ < (Node.fromClause (.ofQuery (middleBlock (q.innerBlock q.innerItems) q.sortNames)
        rowFilterName)).nodeCount := Node.nodeCount_lt_ofQuery _ _
    _ < (Node.select (q.numberedBlocks p)).nodeCount :=
      Node.nodeCount_lt_of_mem_children (Node.mem_children_source (q.numberedBlocks p))

/-! ## Height of the blocks -/

theorem height_innerBlock_le (q : Select) :
    (Node.select (q.innerBlock q.innerItems)).height ≤ (Node.select q).height := by
  obtain ⟨k, hk⟩ := Nat.exists_eq_add_of_lt (Node.height_pos (.select q))
  rw [Nat.zero_add] at hk
  have hchildren := Node.height_le_iff.mp hk.le
  rw [hk, Node.height_le_iff]
  obtain ⟨hitems, hparts⟩ := List.forall_mem_append.mp hchildren
  refine List.forall_mem_append.mpr ⟨List.forall_mem_map.mpr fun i hi => ?_, hparts⟩
  rcases exists_expr_of_mem_innerItems hi with ⟨j, hj, he⟩ | ⟨table, name, he⟩
  · rw [he]
    exact List.forall_mem_map.mp hitems j hj
  · rw [he, Node.height_of_isColumn rfl]
    exact Nat.le_trans (Node.height_pos _) (hparts _ List.mem_cons_self)

theorem height_middleBlock_le (inner : Select) (names : List (String × SortDirection)) :
    (Node.select (middleBlock inner names)).height ≤ (Node.select inner).height + 3 := by
  have hsource : (Node.fromClause (.ofQuery inner wrapperName)).height ≤
      (Node.select inner).height + 2 := Node.height_ofQuery_le (Nat.le_refl _)
  have hnumber : (Node.expr (.rowNumber (sortKeysOf wrapperName names))).height = 1 :=
    Node.height_eq_one rfl
  rw [Node.height_le_iff]
  simp only [Node.children, middleBlock, empty, allColumnsOf, List.map_cons, List.map_nil,
    List.cons_append, List.nil_append, List.forall_mem_cons, hnumber, Node.height_empty,
    Node.height_of_isColumn (e := .star (some wrapperName)) rfl]
  exact ⟨by omega, by omega, hsource, by omega, by omega, by simp⟩

theorem height_outerBlock_le (middle : Select) (shown : List SelectItem)
    (names : List (String × SortDirection)) (first last : UInt64) :
    (Node.select (outerBlock middle shown names first last)).height ≤
      (Node.select middle).height + 3 := by
  have hpos := Node.height_pos (.select middle)
  have hsource : (Node.fromClause (.ofQuery middle rowFilterName)).height ≤
      (Node.select middle).height + 2 := Node.height_ofQuery_le (Nat.le_refl _)
  have hfilter : (Node.condition (rowsBetween first last)).height ≤ 3 := by
    simp [Node.height_le_iff, Node.children, rowsBetween, Predicate.nodes, Expr.nodes, countExpr]
  rw [Node.height_le_iff]
  refine List.forall_mem_append.mpr ⟨List.forall_mem_map.mpr fun i hi => ?_, ?_⟩
  · rw [Node.height_of_isColumn (isColumn_of_mem_outerItems hi)]
    omega
  · refine List.forall_mem_cons.mpr ⟨hsource, List.forall_mem_cons.mpr ⟨?_, ?_⟩⟩
    · exact Nat.le_trans hfilter (by omega)
    · exact List.forall_mem_singleton.mpr (Node.height_empty.le.trans (by omega))

/-- The blocks are higher than the query by six nodes at most. -/
theorem height_numberedBlocks_le (q : Select) (p : Page) :
    (Node.select (q.numberedBlocks p)).height ≤ (Node.select q).height + 6 := by
  have hinner := q.height_innerBlock_le
  have hmiddle := height_middleBlock_le (q.innerBlock q.innerItems) q.sortNames
  have houter := height_outerBlock_le (middleBlock (q.innerBlock q.innerItems) q.sortNames)
    q.shownItems q.sortNames p.first (p.last q.top)
  rw [numberedBlocks_eq]
  omega

end Select

/-! ## Pages that are left -/

/-- A query of which the parts are expanded has its own page only, if they keep none. -/
theorem Select.pageCount_expandParts {q : Select}
    (h : ∀ m ∈ (Node.select q).children, ¬m.KeepsPage) :
    (Node.select q.expandParts).pageCount = Node.ownPages (.select q) := by
  have hchildren : ((Node.select q.expandParts).children.map Node.pageCount).sum = 0 := by
    rw [children_expandParts, List.map_map]
    exact List.sum_eq_zero (List.forall_mem_map.mpr fun m hm => not_not.mp (h m hm))
  rw [Node.pageCount_eq, hchildren]
  rfl

/-- No page of a valid tree is left: each of them has an order, and its blocks have a page less. -/
theorem Node.not_keepsPage (n : Node) : n.violations = [] → ¬n.KeepsPage := by
  induction n using Node.induction with
  | step n ih =>
    intro hvalid
    have hchildren : ∀ m ∈ n.children, ¬m.KeepsPage := fun m hm =>
      ih m hm ((n.violations_eq_nil_iff.mp hvalid).2 m hm)
    have hnone : ¬∃ m ∈ n.children, m.KeepsPage := fun ⟨m, hm, hkeeps⟩ => hchildren m hm hkeeps
    cases n with
    | select q =>
      cases hp : q.page with
      | none =>
        rw [Select.keepsPage_iff (Select.expandPages_of_page_eq_none hp), hp]
        simpa using hnone
      | some p =>
        -- the blocks of the expanded parts have a page less than these, which have one
        have ho := Select.orderBy_ne_nil hvalid hp
        have hpage : q.expandParts.page = some p := hp
        have hparts := Select.pageCount_expandParts hchildren
        rw [Node.ownPages_of_page hp] at hparts
        have hblocks := Select.pageCount_numberedBlocks hpage
        rw [Node.KeepsPage, Node.expandPages, Select.expandPages_of_page hp ho]
        omega
    | _ => rwa [Node.keepsPage_iff (by simp)]

/-! ## From the outside in -/

/-- A query with a page is visited by visiting its blocks, if there are any; else its parts are. -/
def Select.visitBlocks (v : Visitor) (q : Select) : Except Stop Select :=
  if q.page.isSome then
    match q.numberedBlocks? with
    | .ok b => v.select b
    | .error e => .error (.failed e)
  else q.visit v

/-- The visitor that gives up every tree. -/
def Visitor.tooDeep : Visitor where
  expr _ := .error .tooDeep
  predicate _ := .error .tooDeep
  condition _ := .error .tooDeep
  tableRef _ := .error .tooDeep
  fromClause _ := .error .tooDeep
  select _ := .error .tooDeep

/-- The visitor that has another one visit what is right below, or the blocks of a page. -/
def Visitor.above (v : Visitor) : Visitor where
  expr e := e.visit v
  predicate p := p.visit v
  condition c := c.visit v
  tableRef t := t.visit v
  fromClause f := f.visit v
  select q := q.visitBlocks v

/-- The expansion of pages from the outside in, given up below a depth. -/
def outsideIn : Nat → Visitor
  | 0 => .tooDeep
  | depth + 1 => (outsideIn depth).above

/-- The expansion settles on a tree if it may go as deep as the tree is high, and seven nodes deeper
for each page. -/
theorem outsideIn_settles {depth : Nat} {n : Node} (h : n.height + 7 * n.pageCount ≤ depth) :
    (outsideIn depth).Settles n := by
  induction depth generalizing n with
  | zero =>
    have := n.height_pos
    omega
  | succ depth ih =>
    have hchildren : ∀ m ∈ n.children, (outsideIn depth).Settles m := by
      intro m hm
      have hheight := Node.height_lt_of_mem_children hm
      have hpages : m.pageCount ≤ n.pageCount := Node.total_le_of_mem_children hm
      exact ih (by omega)
    cases n with
    | expr e => exact .congr (Node.keepsPage_iff (by simp)).symm (Expr.settled_visit hchildren)
    | predicate p =>
      exact .congr (Node.keepsPage_iff (by simp)).symm (Predicate.settled_visit hchildren)
    | condition c =>
      exact .congr (Node.keepsPage_iff (by simp)).symm (Condition.settled_visit hchildren)
    | tableRef t =>
      exact .congr (Node.keepsPage_iff (by simp)).symm (TableRef.settled_visit hchildren)
    | fromClause f =>
      exact .congr (Node.keepsPage_iff (by simp)).symm (FromClause.settled_visit hchildren)
    | select q =>
      show Settled _ (q.visitBlocks (outsideIn depth)) q.expandPages
      cases hp : q.page with
      | none =>
        have hparts := Select.expandPages_of_page_eq_none hp
        have hkeeps :
            (∃ m ∈ (Node.select q).children, m.KeepsPage) ↔ (Node.select q).KeepsPage := by
          rw [Select.keepsPage_iff hparts, hp]
          simp
        rw [Select.visitBlocks, hp, hparts]
        exact .congr hkeeps (Select.settled_visit hchildren)
      | some p =>
        by_cases ho : q.orderBy = []
        · have hkeeps : (Node.select q).KeepsPage :=
            (Select.keepsPage_iff (Select.expandPages_of_orderBy_eq_nil ho)).mpr
              (.inl (by simp [hp]))
          have hnone : q.numberedBlocks? = .error (.invalidQuery .pageWithoutOrder) := by
            simp [Select.numberedBlocks?, hp, ho]
          rw [Select.visitBlocks, hp, hnone]
          exact ⟨fun hfree => absurd hkeeps hfree, fun _ => rfl⟩
        · -- the blocks are higher by six nodes, and have a page less, which allows for seven
          have hheight := q.height_numberedBlocks_le p
          have hpages := Select.pageCount_numberedBlocks hp
          have hblocks : (outsideIn depth).Settles (.select (q.numberedBlocks p)) :=
            ih (by omega)
          have hexpanded := Select.expandPages_numberedBlocks hp ho
          have hkeeps :
              (Node.select (q.numberedBlocks p)).KeepsPage ↔ (Node.select q).KeepsPage := by
            rw [Node.KeepsPage, Node.KeepsPage, Node.expandPages, Node.expandPages, hexpanded]
          rw [Select.visitBlocks, hp, Select.numberedBlocks?_of_page hp ho, ← hexpanded]
          exact .congr hkeeps hblocks

namespace Select

/-- If the blocks of a query with a page exist, they have fewer pages than the query, at any depth,
although they are a larger tree if no column is dropped. So expanding pages from the outside in ends
for every query, at a depth that is known in advance: it comes to what the dialect writes or, if a
page is left in that, to the error that a page has no order. In a valid query none is left. -/
theorem pageCount_lt_and_outsideIn_ends :
    (∀ q r : Select, q.page ≠ none → q.numberedBlocks? = .ok r →
      (Node.select r).pageCount < (Node.select q).pageCount ∧
      ((∀ i ∈ q.items, i.isNamed rowNumberName = false) →
        (Node.select q).nodeCount < (Node.select r).nodeCount)) ∧
    ∀ d : Dialect, d.expandsPages = true → ∀ (q : Select) (depth : Nat),
      (Node.select q).height + 7 * (Node.select q).pageCount ≤ depth →
        ((outsideIn depth).select q =
          if (Node.select (q.forDialect d)).pageCount = 0 then .ok (q.forDialect d)
          else .error (.failed (.invalidQuery .pageWithoutOrder))) ∧
        ((Statement.select q).validate = .ok () →
          (Node.select (q.forDialect d)).pageCount = 0) := by
  refine ⟨fun q r hpage hr => ?_, fun d hd q depth hdepth => ?_⟩
  · obtain ⟨p, hp⟩ := Option.ne_none_iff_exists'.mp hpage
    have ho : q.orderBy ≠ [] := by
      intro ho
      simp [numberedBlocks?, hp, ho] at hr
    obtain rfl := Except.ok.inj ((numberedBlocks?_of_page hp ho).symm.trans hr)
    have hpages := pageCount_numberedBlocks hp
    exact ⟨by omega, nodeCount_lt_numberedBlocks p⟩
  · have hforDialect : q.forDialect d = q.expandPages := if_pos hd
    rw [hforDialect]
    refine ⟨?_, fun hvalid => ?_⟩
    · obtain ⟨hfree, hstuck⟩ := outsideIn_settles (n := .select q) hdepth
      split
      · exact hfree (not_not.mpr ‹_›)
      · exact hstuck ‹_›
    · have hnone : (Node.select q).violations = [] := Statement.validate_eq_ok_iff.mp hvalid
      exact not_not.mp ((Node.select q).not_keepsPage hnone)

/-- The second page of two rows among those of another page. -/
def nestedPage : Select :=
  { secondPage with
    source := .ofQuery secondPage "orders"
    orderBy := [{ field := "id", table := some "orders" }] }

theorem pageCount_lt_and_outsideIn_ends_nestedPage :
    (Node.select nestedPage).pageCount = 2 ∧
    ∃ b, nestedPage.numberedBlocks? = .ok b ∧ (Node.select b).pageCount < 2 ∧
      (Node.select nestedPage).nodeCount < (Node.select b).nodeCount ∧
      ∃ depth, (outsideIn depth).select nestedPage = .ok (nestedPage.forDialect .oracle) := by
  have hinner : (Node.select secondPage).pageCount = 1 := by
    simp [secondPage, Node.pageCount_eq, Node.children, Expr.nodes,
      Condition.empty, empty, Node.ownPages, Source.nodes]
  have hpages : (Node.select nestedPage).pageCount = 2 := by
    rw [Node.pageCount_select, nestedPage, Node.pageCount_ofQuery, hinner]
    simp [secondPage, Node.pageCount_eq, Node.children, Expr.nodes, Condition.empty, empty,
      Node.ownPages]
  obtain ⟨hblocks, hends⟩ := pageCount_lt_and_outsideIn_ends
  have hb : nestedPage.numberedBlocks? = .ok (nestedPage.numberedBlocks ⟨1, 2⟩) := rfl
  have hkept : ∀ i ∈ nestedPage.items, i.isNamed rowNumberName = false :=
    List.forall_mem_singleton.mpr (by decide +kernel)
  obtain ⟨hfewer, hlarger⟩ := hblocks nestedPage _ (Option.some_ne_none _) hb
  rw [hpages] at hfewer
  obtain ⟨hexpansion, hvalid⟩ := hends .oracle rfl nestedPage _ (Nat.le_refl _)
  exact ⟨hpages, _, hb, hfewer, hlarger hkept, _, hexpansion.trans (if_pos (hvalid rfl))⟩

end Select

end SqlTree
