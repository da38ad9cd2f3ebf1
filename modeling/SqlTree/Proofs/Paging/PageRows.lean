import Mathlib.Logic.ExistsUnique
import SqlTree.Proofs.Paging.Blocks
import SqlTree.Proofs.Paging.Bounds
import SqlTree.Proofs.Rendering.Features
import SqlTree.Proofs.Rendering.Nesting

/-!
# The rows of a page

Which rows are on a page is a matter of exact numbers. What is written are words of 64 bits: the
numbers of the first and the last row, which the blocks of a page compare with, or a limit and an
offset in a clause. Sums and products may have been cut at the largest word and again at the largest
integer; no row that can be numbered notices.

* `Page.Holds`: whether a row is on a page, by its number.

Results:
* `Page.holds_iff`: a row is on a page exactly if it is among those that are left when the offset is
  skipped and the limit is taken.
* `Page.existsUnique_holds_iff`: every row up to the top is on one page, and no other row is on any.
* `Select.render_page`: a dialect with a clause for pages writes it behind the query without a page.
* `Select.holds_iff_between_and_limit`: the blocks and the clause select the rows of the page.
-/

namespace SqlTree

open Token

namespace Page

/-- Whether a row is on a page, by its number from one on. Rows beyond the top are on no page. -/
def Holds (p : Page) (top : Option UInt64) (n : Nat) : Prop :=
  p.index.toNat * p.size.toNat < n ∧ n ≤ p.index.toNat * p.size.toNat + p.size.toNat ∧
    ∀ t ∈ top, n ≤ t.toNat

/-- A row is on a page exactly if it is left when the offset is skipped and the limit is taken. -/
theorem holds_iff (p : Page) (top : Option UInt64) {n : Nat} (hn : n < 2 ^ 63 - 1) :
    p.Holds top n ↔ p.offset.toNat < n ∧ n ≤ p.offset.toNat + (p.limit top).toNat := by
  have hsize := p.size.toNat_lt
  unfold Holds
  rw [toNat_offset]
  cases top with
  | none =>
    rw [limit]
    simp only [Option.mem_def, reduceCtorEq, false_implies, implies_true, and_true]
    omega
  | some top =>
    rw [toNat_limit_some, toNat_offset]
    simp only [Option.mem_def, Option.some.injEq, forall_eq']
    omega

/-- The literals of the offset and the limit cut out the same rows as the words. -/
theorem limit_literals_iff (p : Page) (top : Option UInt64) {n : Nat} (hn : n < 2 ^ 63 - 1) :
    ((countLiteral p.offset).toInt < (n : Int) ∧
        (n : Int) ≤ (countLiteral p.offset).toInt + (countLiteral (p.limit top)).toInt) ↔
      p.offset.toNat < n ∧ n ≤ p.offset.toNat + (p.limit top).toNat := by
  rw [toInt_countLiteral, toInt_countLiteral]
  omega

/-- The index of the page that holds a row. -/
theorem holds_iff_index_eq {p : Page} (hsize : p.size ≠ 0) {top : Option UInt64} {n : Nat}
    (hn : 1 ≤ n) :
    p.Holds top n ↔ p.index.toNat = (n - 1) / p.size.toNat ∧ ∀ t ∈ top, n ≤ t.toNat := by
  have hpos : 0 < p.size.toNat := Nat.pos_of_ne_zero fun h => hsize (UInt64.toNat_inj.mp h)
  unfold Holds
  rw [← and_assoc, eq_comm, Nat.div_eq_iff hpos]
  refine and_congr_left fun _ => ?_
  omega

/-- Every row up to the top is on one page, and no other row is on any. -/
theorem existsUnique_holds_iff {size : UInt64} (hsize : size ≠ 0) (top : Option UInt64) {n : Nat}
    (hn : 1 ≤ n) (hmax : n < 2 ^ 63 - 1) :
    (∃! index, (Page.mk index size).Holds top n) ↔ ∀ t ∈ top, n ≤ t.toNat := by
  constructor
  · rintro ⟨index, h, -⟩
    exact h.2.2
  · intro htop
    have hindex : (UInt64.ofNat ((n - 1) / size.toNat)).toNat = (n - 1) / size.toNat := by
      have hle := Nat.div_le_self (n - 1) size.toNat
      have hlt : (n - 1) / size.toNat < 2 ^ 64 := by omega
      exact UInt64.toNat_ofNat_of_lt' hlt
    refine ⟨UInt64.ofNat ((n - 1) / size.toNat), ?_, fun index h => ?_⟩
    · exact (holds_iff_index_eq hsize hn).mpr ⟨hindex, htop⟩
    · have := ((holds_iff_index_eq hsize hn).mp h).1
      exact UInt64.toNat_inj.mp (this.trans hindex.symm)

end Page

/-! ## What is written -/

/-- The condition that a row number lies between two integers. -/
def rowsFromTo (lo hi : Int64) : Condition :=
  { connective := .and
    predicates :=
      [.between (.field (some rowFilterName) rowNumberName) (.constant (.number (.int lo)))
        (.constant (.number (.int hi))) false]
    groups := [] }

/-- The clause that names a limit and an offset, with a space in front. -/
def pageClause (limit offset : Int64) : List Token :=
  [space, keyword .LIMIT, space, integer limit, space, keyword .OFFSET, space, integer offset]

theorem Dialect.eq_of_trailingClause {d : Dialect} (h : d.pagingStyle = .trailingClause) :
    d = .mySql ∨ d = .postgres := by
  cases d with
  | mySql => exact .inl rfl
  | postgres => exact .inr rfl
  | sqlServer | oracle => contradiction

namespace Select

/-- A query without its page and its limit on all rows. -/
def withoutPage (q : Select) : Select := { q with page := none, top := none }

variable {d : Dialect} {q : Select} {p : Page}

theorem filter_numberedBlocks (q : Select) (p : Page) :
    (q.numberedBlocks p).filter =
      rowsFromTo (countLiteral p.first) (countLiteral (p.last q.top)) := rfl

theorem obstacles_withoutPage (hd : d.pagingStyle = .trailingClause) :
    q.withoutPage.obstacles d = q.obstacles d := by
  have hpage (page : Option Page) : pageObstacles d page = [] := by simp [pageObstacles, hd]
  obtain ⟨items, source, filter, groupBy, groupModifier, having, orderBy, distinct, top, page,
    tableSpace⟩ := q
  rw [withoutPage, obstacles, obstacles, hpage, hpage]

/-- Where pages have a clause, it comes last, and limits on all rows are written nowhere else. -/
theorem tokens_page (hd : d.pagingStyle = .trailingClause) (hp : q.page = some p) :
    q.tokens d = q.withoutPage.tokens d ++
      pageClause (countLiteral (p.limit q.top)) (countLiteral p.offset) := by
  obtain ⟨items, source, filter, groupBy, groupModifier, having, orderBy, distinct, top, page,
    tableSpace⟩ := q
  obtain rfl : page = some p := hp
  obtain ⟨hselect, hnone, hclause⟩ : selectWords d distinct top = selectWords d distinct none ∧
      limitingWords d none none = [] ∧ limitingWords d top (some p) =
        [[keyword .LIMIT], [count (p.limit top)], [keyword .OFFSET], [count p.offset]] := by
    rcases Dialect.eq_of_trailingClause hd with rfl | rfl
    · exact ⟨rfl, rfl, rfl⟩
    · exact ⟨rfl, rfl, rfl⟩
  rw [withoutPage, tokens, tokens, hselect, hnone, hclause, List.append_nil,
    Outline.words_append_of_ne_nil (by simp [selectWords]) (by simp)]
  simp [words, List.intercalate, pageClause, count]

/-- A dialect with a clause for pages writes it behind the query without a page. -/
theorem render_page (hd : d.pagingStyle = .trailingClause) (hp : q.page = some p) :
    (Statement.select q).render d =
      ((Statement.select q.withoutPage).render d).map
        (· ++ pageClause (countLiteral (p.limit q.top)) (countLiteral p.offset)) := by
  have hsame (r : Select) : r.forDialect d = r := by
    simp [forDialect, Dialect.expandsPages, hd]
  rw [Statement.render_eq, Statement.render_eq, Statement.obstacles, Statement.obstacles,
    Statement.tokens, Statement.tokens, hsame, hsame, obstacles_withoutPage hd, tokens_page hd hp]
  cases q.obstacles d <;> rfl

/-- The rows of a page are those between the bounds in its blocks, and those behind the offset and
within the limit in its clause, whatever was cut to fit into words and integers. Every row up to
the top is on exactly one of the pages of one size. -/
theorem holds_iff_between_and_limit (hp : q.page = some p) (ho : q.orderBy ≠ [])
    (hsize : p.size ≠ 0) :
    ∃ b lo hi limit offset,
      q.numberedBlocks? = .ok b ∧ b.filter = rowsFromTo lo hi ∧
      (∀ d : Dialect, d.pagingStyle = .trailingClause →
        (Statement.select q).render d =
          ((Statement.select q.withoutPage).render d).map (· ++ pageClause limit offset)) ∧
      ∀ n : Nat, 1 ≤ n → n < 2 ^ 63 - 1 →
        (p.Holds q.top n ↔ lo.toInt ≤ n ∧ n ≤ hi.toInt) ∧
        (p.Holds q.top n ↔ offset.toInt < n ∧ n ≤ offset.toInt + limit.toInt) ∧
        ((∃! index, (Page.mk index p.size).Holds q.top n) ↔ ∀ t ∈ q.top, n ≤ t.toNat) := by
  refine ⟨_, _, _, _, _, numberedBlocks?_of_page hp ho, filter_numberedBlocks q p,
    fun d hd => render_page hd hp, fun n hn hmax => ⟨?_, ?_, ?_⟩⟩
  · rw [Page.holds_iff p q.top hmax, Page.between_bounds_iff p q.top hmax]
  · rw [Page.holds_iff p q.top hmax, Page.limit_literals_iff p q.top hmax]
  · exact Page.existsUnique_holds_iff hsize q.top hn hmax

/-- The first page of the largest size, which does not fit into an integer literal, cut at the
second row. -/
def hugePage : Select := { secondPage with page := some ⟨0, 18446744073709551615⟩, top := some 2 }

/-- The second row is on the huge page, and the third one is not. -/
theorem holds_iff_between_and_limit_hugePage :
    hugePage.page = some ⟨0, 18446744073709551615⟩ ∧ hugePage.orderBy ≠ [] ∧
    (18446744073709551615 : UInt64) ≠ 0 ∧
    ∃ b lo hi, hugePage.numberedBlocks? = .ok b ∧ b.filter = rowsFromTo lo hi ∧
      (lo.toInt ≤ 2 ∧ 2 ≤ hi.toInt) ∧ ¬(lo.toInt ≤ 3 ∧ 3 ≤ hi.toInt) := by
  have hp : hugePage.page = some ⟨0, 18446744073709551615⟩ := rfl
  have ho : hugePage.orderBy ≠ [] := by simp [hugePage, secondPage]
  have hsize : (18446744073709551615 : UInt64) ≠ 0 := by decide
  obtain ⟨b, lo, hi, limit, offset, hb, hfilter, -, hrows⟩ :=
    holds_iff_between_and_limit hp ho hsize
  refine ⟨hp, ho, hsize, b, lo, hi, hb, hfilter, ?_, ?_⟩
  · exact (hrows 2 (by omega) (by omega)).1.mp (by simp [Page.Holds, hugePage])
  · intro h
    have := (hrows 3 (by omega) (by omega)).1.mpr h
    simp [Page.Holds, hugePage] at this

end Select

end SqlTree
