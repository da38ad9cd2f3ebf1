import SqlTree.Proofs.Pivot.ValidQueries
import SqlTree.Proofs.Rendering.Clauses
import SqlTree.Proofs.Rendering.StatementPieces

/-!
# Finite floats

A float literal can hold a number that no database can read. The check of a tree visits every
constant that is written, so the tokens of a valid tree have no such literal. Expanding pages adds
integers only, and the queries of valid pivot tables are valid.

* `Token.FiniteFloats`: the float literals of a list of tokens are finite.

Results:
* `Node.tokensHave_finiteFloats`: the float literals in a valid node are finite.
* `Statement.finiteFloats_tokens`: so are those in a valid statement.
* `Token.finiteFloats_of_render`: so are those of all statements and pivot tables that are valid.
-/

namespace SqlTree

open Token

/-- The float literals in a list of tokens are finite. -/
def Token.FiniteFloats (ts : List Token) : Prop :=
  ∀ x : Float, literal (.number (.float x)) ∈ ts → x.isFinite = true

variable {d : Dialect}

theorem Token.finiteFloats_literal {c : Constant} (h : c.isFinite = true) :
    FiniteFloats [literal c] := by
  intro x hx
  obtain rfl : .number (.float x) = c := by simpa using hx
  exact h

theorem Token.closed_finiteFloats : Closed FiniteFloats where
  nil := by simp [FiniteFloats]
  append := by
    intro ts us hts hus x hx
    rcases List.mem_append.mp hx with hx | hx
    · exact hts x hx
    · exact hus x hx
  plain := by
    intro t ht
    cases t with
    | literal c => exact finiteFloats_literal ht
    | _ => simp [FiniteFloats]

/-! ## Trees -/

theorem Node.isFinite_of_mem_literals {n : Node} (h : n.KeepsRule) {c : Constant}
    (hc : c ∈ n.literals) : c.isFinite = true := by
  cases n with
  | expr e =>
    cases e with
    | constant x =>
      obtain rfl : c = x := List.mem_singleton.mp hc
      exact h
    | _ => simp [literals] at hc
  | predicate p =>
    cases p with
    | inList e values negated => exact h c hc
    | _ => simp [literals] at hc
  | _ => simp [literals] at hc

/-- The float literals in the tokens of a valid node are finite. -/
theorem Node.tokensHave_finiteFloats {n : Node} (h : n.violations = []) :
    n.TokensHave d FiniteFloats := by
  refine tokensHave_of_writes closed_finiteFloats fun m hm => ?_
  have hrule : m.KeepsRule :=
    (violations_eq_nil_iff m).mp (violations_of_contains hm.contains h) |>.1
  refine closed_piecesHave closed_finiteFloats (fun k _ => ?_) (fun c hc => ?_) fun _ => ?_
  · simp [FiniteFloats]
  · exact finiteFloats_literal (isFinite_of_mem_literals hrule hc)
  · simp [FiniteFloats]

/-- The float literals in the tokens of a valid statement are finite. -/
theorem Statement.finiteFloats_tokens {s : Statement} (h : s.violations = []) :
    FiniteFloats (s.tokens d) := by
  refine closed_tokens_of_written closed_finiteFloats (fun _ => ?_) fun n hn => ?_
  · simp [FiniteFloats]
  · exact Node.tokensHave_finiteFloats (violations_of_mem_written h hn)

theorem Select.finiteFloats_of_violations {q : Select} (h : q.violations = []) {ts : List Token}
    (hrender : (Statement.select q).render d = .ok ts) : FiniteFloats ts := by
  rw [← Statement.tokens_eq_of_render d hrender]
  exact Statement.finiteFloats_tokens h

/-- The float literals in the tokens of a valid statement are finite, and so are those of the
queries that a valid pivot table makes, for the table and, given a row value that is missing or
finite, for the rows behind a cell. -/
theorem Token.finiteFloats_of_render (d : Dialect) :
    (∀ s ts, Statement.validate s = .ok () → s.render d = .ok ts → FiniteFloats ts) ∧
    ∀ p : PivotTable, p.violations = [] →
      (∃ q, p.build = .ok q ∧
        ∀ ts, (Statement.select q).render d = .ok ts → FiniteFloats ts) ∧
      ∀ row name q, (∀ c, row = some c → c.isFinite = true) → p.drillDown row name = .ok q →
        ∀ ts, (Statement.select q).render d = .ok ts → FiniteFloats ts := by
  refine ⟨fun s ts hvalid hrender => ?_, fun p hp => ⟨?_, ?_⟩⟩
  · rw [← Statement.tokens_eq_of_render d hrender]
    exact Statement.finiteFloats_tokens (Statement.validate_eq_ok_iff.mp hvalid)
  · refine ⟨p.crossTab, PivotTable.build_eq_ok_iff.mpr ⟨hp, rfl⟩, fun ts hrender => ?_⟩
    exact Select.finiteFloats_of_violations (PivotTable.violations_crossTab hp) hrender
  · intro row name q hrow hq ts hrender
    exact Select.finiteFloats_of_violations (PivotTable.violations_of_drillDown hq hrow) hrender

/-- A page of the orders whose price is in a list. -/
def Select.pricedPage : Select :=
  { Select.secondPage with
    filter := .all [.inList (.column "price") [.number (.float 1.5)] false] }

/-- The sales of each region, those at a low price in a column of their own. -/
def PivotTable.cheapSales : PivotTable :=
  { base := .table "sales", function := .sum, valueField := "amount", rowField := "region"
    columns := [⟨"price", .number, [⟨"cheap", .range none (some (.number (.float 1.5)))⟩]⟩] }

/-- A finite price in a page, and in the rows behind a cell. -/
theorem Token.finiteFloats_pricedPage :
    (∃ ts, (Statement.select .pricedPage).render .sqlServer = .ok ts ∧
      literal (.number (.float 1.5)) ∈ ts ∧ FiniteFloats ts) ∧
    ∃ q ts, PivotTable.cheapSales.drillDown (some (.string "north")) "cheap" = .ok q ∧
      (Statement.select q).render .sqlServer = .ok ts ∧
      literal (.number (.float 1.5)) ∈ ts ∧ FiniteFloats ts := by
  obtain ⟨hstatement, hpivot⟩ := finiteFloats_of_render .sqlServer
  constructor
  · have hvalid : (Statement.select .pricedPage).validate = .ok () :=
      Statement.validate_eq_ok_iff.mpr (by decide +kernel)
    have hrender : (Statement.select .pricedPage).render .sqlServer =
        .ok ((Statement.select .pricedPage).tokens .sqlServer) := by
      rw [Statement.render_eq,
        show (Statement.select .pricedPage).obstacles .sqlServer = [] by decide +kernel]
    exact ⟨_, hrender, by decide +kernel, hstatement _ _ hvalid hrender⟩
  · have hvalid : PivotTable.cheapSales.violations = [] := by decide +kernel
    have hrow : ∀ c, some (Constant.string "north") = some c → c.isFinite = true := by
      rintro _ ⟨⟩
      rfl
    let cell := PivotTable.cheapSales.cellRows (some (.string "north")) "price"
      ⟨"cheap", .range none (some (.number (.float 1.5)))⟩
    have hrender : (Statement.select cell).render .sqlServer =
        .ok ((Statement.select cell).tokens .sqlServer) := rfl
    exact ⟨cell, _, rfl, hrender, by decide +kernel,
      (hpivot _ hvalid).2 _ "cheap" cell hrow rfl _ hrender⟩

end SqlTree
