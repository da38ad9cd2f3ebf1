import SqlTree.Proofs.Rendering.FiniteFloats
import SqlTree.Proofs.Rendering.ForeignTokens

/-!
# Tokens of valid trees

A valid tree that a dialect can express writes nothing empty: what it lacks is no difference of
dates, and what would be empty breaks a rule. So whatever is kept when tokens are put together holds
of its tokens.

Results:
* `Node.hasPredicate_of_mem_written`: the conditions that a valid node writes have a predicate.
* `Node.filled_of_valid`: a valid node without obstacles is filled.
* `Node.tokensHave_of_valid`: its tokens have every composed property.
-/

namespace SqlTree

open Token

variable {d : Dialect}

theorem FromClause.KeepsRule.exists_fits {f : FromClause} (h : f.KeepsRule) {j : Join}
    (hj : j ∈ f.joins) : ∃ known, j.condition.Fits known j.joinType := by
  obtain ⟨before, after, hjoins⟩ := List.append_of_mem hj
  exact ⟨_, (h.joins before j after hjoins).fits⟩

namespace Node

/-- The conditions that a node writes have a predicate if it keeps its rule. -/
theorem hasPredicate_of_mem_written {n : Node} (h : n.KeepsRule) {g : Condition}
    (hg : condition g ∈ n.written) : g.HasPredicate := by
  cases n with
  | expr e =>
    cases e with
    | case arms otherwise =>
      rcases List.mem_append.mp hg with hg | hg
      · obtain ⟨a, ha, hg⟩ := List.mem_flatMap.mp hg
        obtain rfl : g = a.condition := by simpa [CaseArm.nodes] using hg
        exact h.2 a ha
      · simp at hg
    | aggregate f arg distinct => simp [written, children, Expr.nodes] at hg
    | _ => simp [written, children, Expr.nodes] at hg
  | predicate p =>
    have hother {s : Subquery} : condition g ∉ s.nodes := by cases s <;> simp [Subquery.nodes]
    cases p with
    | inList e values negated => simp [written] at hg
    | inSubquery | «exists» => simp [written, children, Predicate.nodes, hother] at hg
    | _ => simp [written, children, Predicate.nodes] at hg
  | condition c =>
    simp only [written, List.mem_append, List.mem_map, List.mem_filter] at hg
    rcases hg with ⟨p, -, hp⟩ | ⟨g', ⟨-, hfull⟩, hg⟩
    · contradiction
    · obtain rfl : g' = g := condition.inj hg
      exact g'.isEmpty_eq_false_iff.mp (by simpa using hfull)
  | tableRef t =>
    obtain ⟨source, aliasName⟩ := t
    cases source <;> simp [written, children, Source.nodes] at hg
  | fromClause f =>
    rcases List.mem_append.mp hg with hg | hg
    · simp at hg
    · obtain ⟨j, hj, hg⟩ := List.mem_flatMap.mp hg
      have hfits := FromClause.KeepsRule.exists_fits h hj
      obtain ⟨joinType, right, x⟩ := j
      cases x with
      | condition c =>
        obtain rfl : g = c := by simpa [Join.nodes, JoinCondition.nodes] using hg
        exact hfits.elim fun _ hfits => hfits.2
      | _ => simp [Join.nodes, JoinCondition.nodes] at hg
  | select q =>
    have hphrase {c : Condition} (hc : condition g ∈ if c.isEmpty then [] else [condition c]) :
        g.HasPredicate := by
      split at hc
      · simp at hc
      · rename_i hfull
        obtain rfl : g = c := by simpa using hc
        exact g.isEmpty_eq_false_iff.mp (by simpa using hfull)
    rcases List.mem_append.mp hg with hg | hg
    · rcases List.mem_append.mp hg with hg | hg
      · rcases List.mem_append.mp hg with hg | hg
        · simp at hg
        · split at hg <;> simp at hg
      · exact hphrase hg
    · exact hphrase hg

/-- A valid node without obstacles is filled, unless it is a condition by itself. -/
theorem filled_of_valid {n : Node} (hrule : n.KeepsRule) (hobstacles : n.obstacles d = [])
    (hpredicate : ∀ c, n = condition c → c.HasPredicate) : n.Filled d := by
  cases n with
  | expr e =>
    cases e with
    | dateDiff unit start finish =>
      have hunit : unitObstacles d unit = [] := (List.append_eq_nil_iff.mp hobstacles).2
      show (d.dateDifference? unit).isSome = true
      simpa [unitObstacles, Option.isSome_iff_ne_none] using hunit
    | rowNumber orderBy => exact hrule
    | _ => trivial
  | condition c => exact hpredicate c rfl
  | fromClause f =>
    refine ⟨hrule.hasBase, fun j hj left pairs hfields => ?_⟩
    obtain ⟨known, hfits⟩ := FromClause.KeepsRule.exists_fits hrule hj
    rw [hfields] at hfits
    exact hfits.2.2
  | _ => trivial

theorem keywords_subset_special {n : Node} {k : Keyword} (hk : k ∈ n.keywords d) :
    k ∈ Keyword.special := by
  have hlimit : ∀ k ∈ d.limitKeywords, k ∈ Keyword.special := by cases d <;> decide
  cases n with
  | expr e =>
    cases e with
    | rowNumber keys =>
      obtain rfl := List.mem_singleton.mp hk
      decide
    | _ => simp [keywords] at hk
  | fromClause f =>
    obtain ⟨j, -, hj⟩ := List.mem_flatMap.mp hk
    split at hj
    · obtain rfl := List.mem_singleton.mp hj
      decide
    · simp at hj
  | select q =>
    have hif {condition : Prop} [Decidable condition] {s : Keyword} (hs : s ∈ Keyword.special)
        (h : k ∈ if condition then [s] else []) : k ∈ Keyword.special := by
      split at h
      · exact List.mem_singleton.mp h ▸ hs
      · simp at h
    simp only [keywords, List.mem_append] at hk
    rcases hk with ((hk | hk) | hk) | hk
    · exact hlimit k hk
    · exact hif (by decide) hk
    · exact hif (by decide) hk
    · exact hif (by decide) hk
  | _ => simp [keywords] at hk

/-- The tokens of a valid node without obstacles have a composed property that holds of the special
keywords and the operator on bits. Literals are parts, as they are finite. -/
theorem tokensHave_of_valid {Q : List Token → Prop} (hQ : Composed Q)
    (hkeywords : ∀ k ∈ Keyword.special, Placed Q k) (hbits : Q [symbol .bitAnd]) {n : Node}
    (hvalid : n.violations = []) (hobstacles : n.obstacles d = [])
    (hpredicate : ∀ c, n = condition c → c.HasPredicate) : n.TokensHave d Q := by
  induction n using Node.induction with
  | step n ih =>
    have hrule := (n.violations_eq_nil_iff.mp hvalid).1
    have hfilled : Q [] ∨ n.Filled d := .inr (filled_of_valid hrule hobstacles hpredicate)
    refine tokensHave_of_filled hQ hfilled ?_ fun c hc => ?_
    · refine composed_piecesHave hQ hfilled (fun k hk => ?_) (fun c hc => ?_) fun _ => hbits
      · exact hkeywords k (keywords_subset_special hk)
      · have hfinite : c.isFinite = true := isFinite_of_mem_literals hrule hc
        exact hQ.part (by simp [isPart, isPlain, hfinite])
    · refine ih c (written_subset_children n hc) ?_ ?_ ?_
      · exact violations_of_mem_children hvalid (written_subset_children n hc)
      · exact List.subset_nil.mp (hobstacles ▸ obstacles_subset_of_mem_written hc)
      · rintro g rfl
        exact hasPredicate_of_mem_written hrule hc

end Node

end SqlTree
