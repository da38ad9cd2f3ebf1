import SqlTree.Number.Range

/-!
# Pages

A page request names a page by its index, counting from zero, and by the number of rows on each
page. Row counts are words of 64 bits; sums and products that do not fit stay at the largest word.

* `Page.offset`: the number of rows before the page;
* `Page.limit`: the number of rows on the page, cut where a limit on all rows ends.
-/

namespace SqlTree

/-- The row count nearest to a natural number. -/
def rowCount (n : Nat) : UInt64 := UInt64.ofNat (min n (2 ^ 64 - 1))

theorem toNat_rowCount (n : Nat) : (rowCount n).toNat = min n (2 ^ 64 - 1) := by
  have h : min n (2 ^ 64 - 1) < 2 ^ 64 := by omega
  exact UInt64.toNat_ofNat_of_lt' h

/-- A page of rows: its index from zero, and the rows per page. -/
structure Page where
  index : UInt64
  size : UInt64
deriving DecidableEq

namespace Page

/-- The number of rows before the page. -/
def offset (p : Page) : UInt64 := rowCount (p.index.toNat * p.size.toNat)

/-- The number of rows on the page, so that no row after the first `top` is on it. -/
def limit (p : Page) (top : Option UInt64) : UInt64 :=
  match top with
  | none => p.size
  | some top => rowCount (min p.size.toNat (top.toNat - p.offset.toNat))

/-- The number of the first row on the page, counting from one. -/
def first (p : Page) : UInt64 := rowCount (p.offset.toNat + 1)

/-- The number of the last row on the page, cut where the first `top` rows end. -/
def last (p : Page) (top : Option UInt64) : UInt64 :=
  let full := rowCount (p.offset.toNat + p.size.toNat)
  match top with
  | none => full
  | some top => if top.toNat < full.toNat then top else full

theorem toNat_offset (p : Page) :
    p.offset.toNat = min (p.index.toNat * p.size.toNat) (2 ^ 64 - 1) := toNat_rowCount _

end Page

/-- A row count as an integer literal; counts beyond the largest integer stay there. -/
def countLiteral (n : UInt64) : Int64 := Int64.ofInt (min n.toNat (2 ^ 63 - 1))

end SqlTree
