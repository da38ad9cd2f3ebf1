import Mathlib.Algebra.GroupWithZero.Nat
import Mathlib.Algebra.Order.BigOperators.Group.List
import Mathlib.Algebra.Order.Group.Nat
import SqlTree.Proofs.Tree.Node

/-!
# Measures of trees

Numbers that belong to a tree as a whole are made of those of its children. Pages are counted
wherever a tree has a query: in expressions and predicates, in output columns, and in the sources of
a query and their joins.

* `Node.fold`: a value for each node, made of the values of its children.
* `Node.total`: the sum of the weights of all nodes of a tree.
* `Node.pageCount`, `Node.nodeCount`, `Node.height`: the number of queries with a page, the number
  of nodes, and the length of the longest way down.

Results:
* `Node.total_eq`, `Node.height_le_iff`: how the measures of a node depend on those of its children.
* `Node.total_le_of_mem_children`, `Node.height_lt_of_mem_children`: a child has no more of a weight
  than its node, and is less high.
-/

namespace SqlTree

namespace Node

/-- A value for a node, made of the values of its children. -/
def fold {α : Type} (f : Node → List α → α) (n : Node) : α :=
  f n (n.children.attach.map fun m => fold f m.1)
termination_by sizeOf n
decreasing_by exact sizeOf_lt_of_mem_children m.2

theorem fold_eq {α : Type} (f : Node → List α → α) (n : Node) :
    n.fold f = f n (n.children.map (fold f)) := by
  rw [fold, List.attach_map_val]

/-! ## Sums -/

/-- The sum of the weights of a node and all nodes below it. -/
def total (weight : Node → Nat) (n : Node) : Nat := n.fold fun n totals => weight n + totals.sum

/-- Whether a node is a query with a page, as a number. -/
def ownPages : Node → Nat
  | .select q => if q.page.isSome then 1 else 0
  | _ => 0

/-- The number of queries with a page in a tree, at any depth. -/
def pageCount (n : Node) : Nat := n.total ownPages

/-- The number of nodes of a tree. -/
def nodeCount (n : Node) : Nat := n.total fun _ => 1

variable {weight : Node → Nat} {m n : Node}

theorem total_eq (weight : Node → Nat) (n : Node) :
    n.total weight = weight n + (n.children.map (total weight)).sum := fold_eq _ n

theorem pageCount_eq (n : Node) : n.pageCount = n.ownPages + (n.children.map pageCount).sum :=
  total_eq _ n

theorem nodeCount_eq (n : Node) : n.nodeCount = 1 + (n.children.map nodeCount).sum := total_eq _ n

theorem ownPages_of_page {q : Select} {p : Page} (hp : q.page = some p) :
    ownPages (select q) = 1 := by
  simp [ownPages, hp]

/-- The pages of a query: its own, those of its columns, and those of its other parts. -/
theorem pageCount_select (q : Select) :
    (select q).pageCount = ownPages (select q) +
      (q.items.map fun i => (expr i.expr).pageCount).sum +
        ((fromClause q.source).pageCount + (condition q.filter).pageCount +
          (condition q.having).pageCount) := by
  rw [pageCount_eq]
  simp only [children, List.map_append, List.map_map, List.sum_append, List.map_cons, List.map_nil,
    List.sum_cons, List.sum_nil, Function.comp_def]
  omega

/-- A child has no more of a weight than its node, apart from what the node itself has. -/
theorem add_total_le_of_mem_children (weight : Node → Nat) (h : m ∈ n.children) :
    weight n + m.total weight ≤ n.total weight := by
  rw [total_eq weight n]
  exact Nat.add_le_add_left (List.le_sum_of_mem (List.mem_map_of_mem h)) _

theorem total_le_of_mem_children (h : m ∈ n.children) : m.total weight ≤ n.total weight :=
  Nat.le_trans (Nat.le_add_left _ _) (add_total_le_of_mem_children weight h)

theorem nodeCount_lt_of_mem_children (h : m ∈ n.children) : m.nodeCount < n.nodeCount := by
  have hle : 1 + m.nodeCount ≤ n.nodeCount := add_total_le_of_mem_children (fun _ => 1) h
  omega

/-! ## Heights -/

/-- The number of nodes on the longest way down from a node. -/
def height (n : Node) : Nat := n.fold fun _ heights => heights.max?.getD 0 + 1

theorem height_eq (n : Node) : n.height = (n.children.map height).max?.getD 0 + 1 := fold_eq _ n

theorem height_lt_of_mem_children (h : m ∈ n.children) : m.height < n.height := by
  rw [height_eq n]
  exact Nat.lt_succ_of_le (List.le_max?_getD_of_mem (List.mem_map_of_mem h))

theorem height_le_iff {k : Nat} : n.height ≤ k + 1 ↔ ∀ m ∈ n.children, m.height ≤ k := by
  refine ⟨fun h m hm => Nat.le_of_lt_succ (Nat.lt_of_lt_of_le (height_lt_of_mem_children hm) h),
    fun h => ?_⟩
  rw [height_eq, Nat.add_le_add_iff_right]
  cases hmax : (n.children.map height).max? with
  | none => exact Nat.zero_le k
  | some top =>
    obtain ⟨m, hm, rfl⟩ := List.mem_map.mp (List.max?_mem hmax)
    exact h m hm

theorem height_eq_one (h : n.children = []) : n.height = 1 := by
  rw [height_eq, h]
  rfl

theorem height_pos (n : Node) : 0 < n.height := by
  rw [height_eq]
  exact Nat.succ_pos _

end Node

end SqlTree
