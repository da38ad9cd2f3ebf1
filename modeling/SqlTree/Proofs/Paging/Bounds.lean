import SqlTree.Paging.NumberedBlocks

/-!
# Bounds of a page

The numbers of the first and the last row of a page are written as integer literals, where counts
that are too large stay at the largest integer. Rows with smaller numbers do not notice.

Results:
* `Page.between_bounds_iff`: the literals enclose the numbers of the rows that are left when the
  offset is skipped and the limit is taken.
-/

namespace SqlTree

theorem toInt_countLiteral (n : UInt64) :
    (countLiteral n).toInt = (min n.toNat (2 ^ 63 - 1) : Nat) := by
  have hn := Int.natCast_nonneg n.toNat
  unfold countLiteral
  rw [Int64.toInt_ofInt_of_le] <;> omega

namespace Page

theorem toNat_first (p : Page) : p.first.toNat = min (p.offset.toNat + 1) (2 ^ 64 - 1) :=
  toNat_rowCount _

theorem toNat_last_none (p : Page) :
    (p.last none).toNat = min (p.offset.toNat + p.size.toNat) (2 ^ 64 - 1) :=
  toNat_rowCount _

theorem toNat_last_some (p : Page) (top : UInt64) :
    (p.last (some top)).toNat =
      min top.toNat (min (p.offset.toNat + p.size.toNat) (2 ^ 64 - 1)) := by
  have hfull := toNat_rowCount (p.offset.toNat + p.size.toNat)
  unfold last
  simp only
  split <;> omega

theorem toNat_limit_some (p : Page) (top : UInt64) :
    (p.limit (some top)).toNat = min p.size.toNat (top.toNat - p.offset.toNat) := by
  have hsize := p.size.toNat_lt
  have hlimit := toNat_rowCount (min p.size.toNat (top.toNat - p.offset.toNat))
  rw [limit, hlimit]
  omega

/-- The literals of the first and the last row of a page enclose the numbers of the rows that are
left when the offset is skipped and the limit is taken. -/
theorem between_bounds_iff (p : Page) (top : Option UInt64) {n : Nat} (hn : n < 2 ^ 63 - 1) :
    ((countLiteral p.first).toInt ≤ (n : Int) ∧ (n : Int) ≤ (countLiteral (p.last top)).toInt) ↔
      p.offset.toNat < n ∧ n ≤ p.offset.toNat + (p.limit top).toNat := by
  rw [toInt_countLiteral, toInt_countLiteral, Int.ofNat_le, Int.ofNat_le, toNat_first]
  cases top with
  | none =>
    rw [toNat_last_none, limit]
    omega
  | some top =>
    rw [toNat_last_some, toNat_limit_some]
    omega

end Page

end SqlTree
