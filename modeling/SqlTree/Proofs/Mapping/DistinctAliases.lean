import Mathlib.Data.List.Induction
import Mathlib.Data.List.Nodup
import SqlTree.Mapping.Alias
import SqlTree.Proofs.Text.Digits

/-!
# Aliases of a session

A session counts the aliases of each letter. The aliases that it hands out are told apart by their
letter and their number, so none is handed out twice before the numbers of its letter, which have 32
bits, are used up. When a session is reset, it forgets what it handed out.

* `AliasSession.nextEach`: the aliases for several tables, one after another.
* `AliasCall`, `AliasSession.run`: the uses of a session, and what they come to.
* `timesAsked`: how many of several tables have a letter.

Results:
* `aliasText_inj`: an alias stands for one letter and one number.
* `AliasSession.mem_nextEach_iff`: which aliases were handed out.
* `AliasSession.next_mem_nextEach_iff`: an alias is handed out again when all numbers of its letter
  were in use.
* `AliasSession.nodup_run`: the aliases since the last reset are different, and after a reset a
  session is like a new one.
-/

namespace SqlTree

/-! ## Texts -/

/-- An alias stands for one letter and one number. -/
theorem aliasText_inj {letter letter' : Char} {m n : UInt32} :
    aliasText letter m = aliasText letter' n ↔ letter = letter' ∧ m = n := by
  constructor
  · intro h
    have hlists := String.ofList_inj.mp h
    by_cases hm : m = 1 <;> by_cases hn : n = 1
    · simpa [hm, hn] using hlists
    · rw [if_pos hm, if_neg hn, List.cons.injEq] at hlists
      exact absurd hlists.2.symm (Text.digits_ne_nil _)
    · rw [if_neg hm, if_pos hn, List.cons.injEq] at hlists
      exact absurd hlists.2 (Text.digits_ne_nil _)
    · rw [if_neg hm, if_neg hn, List.cons.injEq] at hlists
      exact ⟨hlists.1, UInt32.toNat_inj.mp (Text.digits_injective hlists.2)⟩
  · rintro ⟨rfl, rfl⟩
    rfl

/-- How many of several tables have a letter. -/
def timesAsked (letter : Char) (tables : List String) : Nat :=
  (tables.map aliasLetter).count letter

theorem timesAsked_concat (letter : Char) (tables : List String) (table : String) :
    timesAsked letter (tables ++ [table]) =
      timesAsked letter tables + if aliasLetter table = letter then 1 else 0 := by
  simp [timesAsked, List.count_singleton]

/-! ## Several aliases -/

namespace AliasSession

/-- One more alias behind those that were handed out, and the session afterwards. -/
def handOut (st : List String × AliasSession) (table : String) : List String × AliasSession :=
  (st.1 ++ [(st.2.next table).1], (st.2.next table).2)

/-- The aliases for several tables, one after another, and the session afterwards. -/
def nextEach (s : AliasSession) (tables : List String) : List String × AliasSession :=
  tables.foldl handOut ([], s)

/-- The alias for a letter when there were already `k` for it. -/
def aliasAfter (s : AliasSession) (letter : Char) (k : Nat) : String :=
  aliasText letter (.ofNat (s.letters.count letter + k + 1))

variable (s : AliasSession) (tables : List String) (table : String)

theorem nextEach_concat :
    s.nextEach (tables ++ [table]) = handOut (s.nextEach tables) table :=
  List.foldl_concat ..

theorem letters_nextEach :
    (s.nextEach tables).2.letters = (tables.map aliasLetter).reverse ++ s.letters := by
  induction tables using List.reverseRecOn with
  | nil => rfl
  | append_singleton tables table ih =>
    rw [nextEach_concat]
    show aliasLetter table :: (s.nextEach tables).2.letters = _
    rw [ih]
    simp

/-- The next alias is the one after as many as were asked for its letter. -/
theorem next_nextEach :
    ((s.nextEach tables).2.next table).1 =
      s.aliasAfter (aliasLetter table) (timesAsked (aliasLetter table) tables) := by
  have hcount : (s.nextEach tables).2.letters.count (aliasLetter table) =
      s.letters.count (aliasLetter table) + timesAsked (aliasLetter table) tables := by
    rw [letters_nextEach, List.count_append, List.count_reverse, Nat.add_comm]
    rfl
  show aliasText _ _ = _
  rw [hcount, aliasAfter]

/-- Two aliases of a session are equal if they have the same letter and their numbers are equal in
32 bits. -/
theorem aliasAfter_inj {letter letter' : Char} {m n : Nat} :
    s.aliasAfter letter m = s.aliasAfter letter' n ↔
      letter = letter' ∧ m % 2 ^ 32 = n % 2 ^ 32 := by
  rw [aliasAfter, aliasAfter, aliasText_inj]
  refine and_congr_right ?_
  rintro rfl
  rw [← UInt32.toNat_inj, UInt32.toNat_ofNat', UInt32.toNat_ofNat']
  omega

/-- The aliases that were handed out: for each letter, one for each table with this letter. -/
theorem mem_nextEach_iff {aliasName : String} :
    aliasName ∈ (s.nextEach tables).1 ↔
      ∃ letter k, k < timesAsked letter tables ∧ aliasName = s.aliasAfter letter k := by
  induction tables using List.reverseRecOn with
  | nil => simp [nextEach, timesAsked]
  | append_singleton tables table ih =>
    have hnew : (s.nextEach (tables ++ [table])).1 = (s.nextEach tables).1 ++
        [s.aliasAfter (aliasLetter table) (timesAsked (aliasLetter table) tables)] := by
      rw [nextEach_concat, handOut, next_nextEach]
    rw [hnew, List.mem_append, ih, List.mem_singleton]
    constructor
    · rintro (⟨letter, k, hk, rfl⟩ | rfl)
      · exact ⟨letter, k, by rw [timesAsked_concat]; omega, rfl⟩
      · exact ⟨_, _, by rw [timesAsked_concat, if_pos rfl]; omega, rfl⟩
    · rintro ⟨letter, k, hk, rfl⟩
      rw [timesAsked_concat] at hk
      split at hk
      · rename_i hletter
        subst hletter
        obtain hlt | rfl := Nat.lt_succ_iff_lt_or_eq.mp hk
        · exact .inl ⟨_, k, hlt, rfl⟩
        · exact .inr rfl
      · exact .inl ⟨letter, k, hk, rfl⟩

/-- The next alias was handed out before exactly if all numbers of its letter were. -/
theorem next_mem_nextEach_iff :
    ((s.nextEach tables).2.next table).1 ∈ (s.nextEach tables).1 ↔
      2 ^ 32 ≤ timesAsked (aliasLetter table) tables := by
  rw [next_nextEach, mem_nextEach_iff]
  constructor
  · rintro ⟨letter, k, hk, heq⟩
    obtain ⟨rfl, hmod⟩ := s.aliasAfter_inj.mp heq
    omega
  · intro h
    refine ⟨aliasLetter table, timesAsked (aliasLetter table) tables - 2 ^ 32, by omega, ?_⟩
    exact s.aliasAfter_inj.mpr ⟨rfl, by omega⟩

/-- The aliases are different as long as the numbers of each letter suffice. -/
theorem nodup_nextEach (h : ∀ letter, timesAsked letter tables ≤ 2 ^ 32) :
    (s.nextEach tables).1.Nodup := by
  induction tables using List.reverseRecOn with
  | nil => exact List.nodup_nil
  | append_singleton tables table ih =>
    have hbefore (letter : Char) : timesAsked letter tables +
        (if aliasLetter table = letter then 1 else 0) ≤ 2 ^ 32 := by
      rw [← timesAsked_concat]
      exact h letter
    have hold := ih fun letter => by have := hbefore letter; omega
    have hnew : ((s.nextEach tables).2.next table).1 ∉ (s.nextEach tables).1 := by
      rw [next_mem_nextEach_iff]
      have := hbefore (aliasLetter table)
      rw [if_pos rfl] at this
      omega
    rw [nextEach_concat, handOut, ← List.concat_eq_append]
    exact (List.nodup_concat _ _).mpr ⟨hnew, hold⟩

end AliasSession

/-! ## Runs -/

/-- A use of a session. -/
inductive AliasCall where
  /-- Asking for the next alias of a table. -/
  | next (table : String)
  | reset

/-- The aliases since the last reset and the session, after one more call. -/
def AliasCall.step (st : List String × AliasSession) : AliasCall → List String × AliasSession
  | next table => AliasSession.handOut st table
  | reset => ([], st.2.reset)

/-- The tables since the last reset. -/
def AliasCall.tables (calls : List AliasCall) : List String :=
  calls.foldl (fun tables call =>
    match call with
    | next table => tables ++ [table]
    | reset => []) []

namespace AliasSession

/-- The aliases that a session hands out after the last reset of several calls, or from the start if
there is none, and the session afterwards. -/
def run (s : AliasSession) (calls : List AliasCall) : List String × AliasSession :=
  calls.foldl AliasCall.step ([], s)

variable (s : AliasSession) (calls : List AliasCall)

/-- A run comes to its calls after the last reset. -/
theorem exists_run_eq :
    ∃ start : AliasSession, s.run calls = start.nextEach (AliasCall.tables calls) := by
  induction calls using List.reverseRecOn with
  | nil => exact ⟨s, rfl⟩
  | append_singleton calls call ih =>
    obtain ⟨start, hrun⟩ := ih
    cases call with
    | next table =>
      refine ⟨start, ?_⟩
      rw [run, AliasCall.tables, List.foldl_concat, List.foldl_concat, ← run, hrun]
      exact (start.nextEach_concat _ table).symm
    | reset =>
      refine ⟨empty, ?_⟩
      rw [run, AliasCall.tables, List.foldl_concat, List.foldl_concat]
      rfl

/-- After a reset a session goes on like a new one. -/
theorem run_append_reset (later : List AliasCall) :
    s.run (calls ++ .reset :: later) = empty.run later := by
  rw [run, List.foldl_append, List.foldl_cons]
  rfl

/-- As long as no letter is asked for 2 ^ 32 times, the aliases since the last reset are different.
After a reset a session goes on like a new one, whatever it was used for. -/
theorem nodup_run
    (h : ∀ letter, timesAsked letter (AliasCall.tables calls) < 2 ^ 32) :
    (s.run calls).1.Nodup ∧
      ∀ later, s.run (calls ++ .reset :: later) = empty.run later := by
  refine ⟨?_, s.run_append_reset calls⟩
  obtain ⟨start, hrun⟩ := s.exists_run_eq calls
  rw [hrun]
  exact start.nodup_nextEach _ fun letter => Nat.le_of_lt (h letter)

/-- A session that is reset once, with tables that share the letters `c` and `t`. -/
theorem nodup_run_tables :
    (∀ letter, timesAsked letter (AliasCall.tables [.next "customers", .reset, .next "Cities",
      .next "_audit", .next "customers", .next "tags"]) < 2 ^ 32) ∧
    (empty.run [.next "customers", .reset, .next "Cities", .next "_audit", .next "customers",
      .next "tags"]).1 = ["c", "t", "c2", "t2"] ∧ ["c", "t", "c2", "t2"].Nodup := by
  have hasked (letter : Char) : timesAsked letter (AliasCall.tables [.next "customers", .reset,
      .next "Cities", .next "_audit", .next "customers", .next "tags"]) < 2 ^ 32 :=
    Nat.lt_of_le_of_lt List.count_le_length (by decide)
  exact ⟨hasked, by decide +kernel, (nodup_run empty _ hasked).1⟩

end AliasSession

end SqlTree
