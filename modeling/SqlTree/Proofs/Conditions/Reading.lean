import Mathlib.Data.List.Forall2
import SqlTree.Syntax.Words

/-!
# Reading a condition

A condition is written as atoms, connectives and parentheses. A database reads it by a grammar in
which AND binds tighter than OR, and computes with three truth values, as a test of a missing value
is neither true nor false. A text of atoms has at most one value under this grammar.

* `Truth`: the three truth values;
* `Word`: an atom, a connective or a parenthesis;
* `Reads`: the value of words, as a factor, as factors joined by AND, or as terms joined by OR.

Results:
* `Reads.unique`: words have one value at most.
* `Connective.reads_join`: factors that are joined by one connective have their values combined by
  this connective.
-/

namespace SqlTree

/-! ## Truth values -/

/-- Whether a condition holds. -/
inductive Truth where
  | no
  | unknown
  | yes
deriving DecidableEq, Repr

namespace Truth

/-- Both of two conditions: no if one is no, and else unknown if one is unknown. -/
def and : Truth → Truth → Truth
  | no, _ | _, no => no
  | unknown, _ | _, unknown => unknown
  | yes, yes => yes

/-- One of two conditions: yes if one is yes, and else unknown if one is unknown. -/
def or : Truth → Truth → Truth
  | yes, _ | _, yes => yes
  | unknown, _ | _, unknown => unknown
  | no, no => no

@[simp] theorem yes_and (t : Truth) : yes.and t = t := by cases t <;> rfl

@[simp] theorem no_or (t : Truth) : no.or t = t := by cases t <;> rfl

theorem and_assoc (s t u : Truth) : (s.and t).and u = s.and (t.and u) := by
  cases s <;> cases t <;> cases u <;> rfl

end Truth

/-- Two truth values under a connective. -/
def Connective.combine : Connective → Truth → Truth → Truth
  | .and => Truth.and
  | .or => Truth.or

/-- Truth values under a connective; there is no value if there are none. -/
def Connective.combine? (k : Connective) : List Truth → Option Truth
  | [] => none
  | t :: ts => some (ts.foldl k.combine t)

theorem Connective.combine?_eq_none_iff {k : Connective} {ts : List Truth} :
    k.combine? ts = none ↔ ts = [] := by
  cases ts <;> simp [combine?]

/-! ## The grammar -/

/-- A piece of a condition. -/
inductive Word (α : Type) where
  | atom (a : α)
  | connective (k : Connective)
  | openParen
  | closeParen

/-- The atom of a word, if it is one. -/
def Word.atom? {α : Type} : Word α → Option α
  | atom a => some a
  | connective _ | openParen | closeParen => none

/-- A word with another atom in it. -/
def Word.map {α β : Type} (f : α → β) : Word α → Word β
  | atom a => atom (f a)
  | connective k => connective k
  | openParen => openParen
  | closeParen => closeParen

/-- What words are read as. -/
inductive Rank where
  | factor
  | term
  | condition

/-- The value of words whose atoms are truth values. A factor is an atom or a condition in
parentheses; a term is a factor, or a term and a factor joined by AND; a condition is a term, or a
condition and a term joined by OR. -/
inductive Reads : Rank → List (Word Truth) → Truth → Prop where
  | atom (t : Truth) : Reads .factor [.atom t] t
  | parens {ws : List (Word Truth)} {t : Truth} (h : Reads .condition ws t) :
      Reads .factor (.openParen :: ws ++ [.closeParen]) t
  | ofFactor {ws : List (Word Truth)} {t : Truth} (h : Reads .factor ws t) : Reads .term ws t
  | and {ws us : List (Word Truth)} {s t : Truth} (hws : Reads .term ws s)
      (hus : Reads .factor us t) : Reads .term (ws ++ .connective .and :: us) (s.and t)
  | ofTerm {ws : List (Word Truth)} {t : Truth} (h : Reads .term ws t) : Reads .condition ws t
  | or {ws us : List (Word Truth)} {s t : Truth} (hws : Reads .condition ws s)
      (hus : Reads .term us t) : Reads .condition (ws ++ .connective .or :: us) (s.or t)

/-! ## Scanning words -/

/-- What is known between two parentheses: the value of the terms that have ended, and that of the
factors of the term that has not. -/
structure Level where
  terms : Truth
  factors : Truth

namespace Level

/-- Nothing has been read: no term is met, and all factors are. -/
def start : Level := ⟨.no, .yes⟩

/-- The value of what has been read. -/
def value (l : Level) : Truth := l.terms.or l.factors

/-- One factor more. -/
def push (l : Level) (t : Truth) : Level := { l with factors := l.factors.and t }

/-- The end of a term. -/
def next (l : Level) : Level := ⟨l.value, .yes⟩

theorem value_push_start (t : Truth) : (start.push t).value = t := by
  simp [start, push, value]

theorem value_push_next (l : Level) (t : Truth) : (l.next.push t).value = l.value.or t := by
  simp [next, push, value]

theorem push_push (l : Level) (s t : Truth) : (l.push s).push t = l.push (s.and t) := by
  simp [push, Truth.and_assoc]

/-- The value of words from left to right, behind what is known at this level and outside of it. -/
def scan (l : Level) (outer : List Level) : List (Word Truth) → Truth
  | [] => l.value
  | .atom t :: ws => (l.push t).scan outer ws
  | .connective .and :: ws => l.scan outer ws
  | .connective .or :: ws => l.next.scan outer ws
  | .openParen :: ws => start.scan (l :: outer) ws
  | .closeParen :: ws =>
    match outer with
    | [] => l.scan [] ws
    | o :: os => (o.push l.value).scan os ws

end Level

/-- What scanning words does that are read with a value: a factor or a term is one factor more, and
a condition leaves its value behind. -/
def Rank.Scans (ws : List (Word Truth)) (t : Truth) : Rank → Prop
  | .factor | .term => ∀ l outer rest, Level.scan l outer (ws ++ rest) = (l.push t).scan outer rest
  | .condition => ∃ l : Level, l.value = t ∧
      ∀ outer rest, Level.start.scan outer (ws ++ rest) = l.scan outer rest

namespace Reads

variable {r : Rank} {ws : List (Word Truth)} {s t : Truth}

theorem scans (h : Reads r ws t) : r.Scans ws t := by
  induction h with
  | atom t => exact fun _ _ _ => rfl
  | @parens ws t _ ih =>
    obtain ⟨inner, hvalue, hscan⟩ := ih
    intro l outer rest
    rw [List.append_assoc, List.cons_append, Level.scan, hscan, List.singleton_append, Level.scan,
      hvalue]
  | ofFactor _ ih => exact ih
  | @and ws us s t _ _ ihws ihus =>
    intro l outer rest
    rw [List.append_assoc, List.cons_append, ihws, Level.scan, ihus, Level.push_push]
  | @ofTerm ws t _ ih =>
    exact ⟨Level.start.push t, Level.value_push_start t, ih Level.start⟩
  | @or ws us s t _ _ ihws ihus =>
    obtain ⟨l, hvalue, hscan⟩ := ihws
    refine ⟨l.next.push t, by rw [Level.value_push_next, hvalue], fun outer rest => ?_⟩
    rw [List.append_assoc, List.cons_append, hscan, Level.scan, ihus]

/-- Scanning words that are read as a condition gives their value. -/
theorem scan_eq (h : Reads .condition ws t) : Level.start.scan [] ws = t := by
  obtain ⟨l, hvalue, hscan⟩ := h.scans
  rw [← List.append_nil ws, hscan, Level.scan, hvalue]

/-- AND binds tighter than OR, also where it comes last. -/
example : Level.start.scan [] [.atom .yes, .connective .or, .atom .unknown, .connective .and,
    .atom .no] = .yes := by decide

/-- Words have one value at most. -/
theorem unique (hs : Reads .condition ws s) (ht : Reads .condition ws t) : s = t :=
  hs.scan_eq.symm.trans ht.scan_eq

theorem ne_nil (h : Reads r ws t) : ws ≠ [] := by
  induction h with
  | atom | parens => exact List.cons_ne_nil _ _
  | ofFactor _ ih | ofTerm _ ih => exact ih
  | and | or => exact List.append_ne_nil_of_right_ne_nil _ (List.cons_ne_nil _ _)

end Reads

/-! ## Joined factors -/

/-- Parts with a connective between each two. -/
def Connective.join {α : Type} (k : Connective) : List (List (Word α)) → List (Word α)
  | [] => []
  | part :: parts => part ++ parts.flatMap (Word.connective k :: ·)

theorem Connective.map_join {α β : Type} (k : Connective) (f : α → β)
    (parts : List (List (Word α))) :
    (k.join parts).map (Word.map f) = k.join (parts.map (List.map (Word.map f))) := by
  cases parts with
  | nil => rfl
  | cons part parts => simp [join, List.map_flatMap, List.flatMap_map, Word.map]

theorem Connective.filterMap_atom?_join {α : Type} (k : Connective)
    (parts : List (List (Word α))) :
    (k.join parts).filterMap Word.atom? = parts.flatMap (List.filterMap Word.atom?) := by
  cases parts with
  | nil => rfl
  | cons part parts =>
    simp [join, List.filterMap_append, List.filterMap_flatMap, List.filterMap_cons, Word.atom?]

theorem Reads.and_factors {ws : List (Word Truth)} {s : Truth} (h : Reads .term ws s)
    {parts : List (List (Word Truth))} {ts : List Truth}
    (hparts : List.Forall₂ (Reads .factor) parts ts) :
    Reads .term (ws ++ parts.flatMap (Word.connective .and :: ·)) (ts.foldl Truth.and s) := by
  induction hparts generalizing ws s with
  | nil => rwa [List.flatMap_nil, List.append_nil]
  | cons hpart _ ih =>
    rw [List.flatMap_cons, ← List.append_assoc]
    exact ih (h.and hpart)

theorem Reads.or_factors {ws : List (Word Truth)} {s : Truth} (h : Reads .condition ws s)
    {parts : List (List (Word Truth))} {ts : List Truth}
    (hparts : List.Forall₂ (Reads .factor) parts ts) :
    Reads .condition (ws ++ parts.flatMap (Word.connective .or :: ·)) (ts.foldl Truth.or s) := by
  induction hparts generalizing ws s with
  | nil => rwa [List.flatMap_nil, List.append_nil]
  | cons hpart _ ih =>
    rw [List.flatMap_cons, ← List.append_assoc]
    exact ih (h.or (.ofFactor hpart))

/-- Factors that are joined by one connective have their values combined by this connective. -/
theorem Connective.reads_join (k : Connective) {parts : List (List (Word Truth))}
    {ts : List Truth} {t : Truth} (hparts : List.Forall₂ (Reads .factor) parts ts)
    (ht : k.combine? ts = some t) : Reads .condition (k.join parts) t := by
  cases hparts with
  | nil => contradiction
  | cons hpart hrest =>
    obtain rfl := Option.some.inj ht
    cases k with
    | and => exact .ofTerm (Reads.and_factors (.ofFactor hpart) hrest)
    | or => exact Reads.or_factors (.ofTerm (.ofFactor hpart)) hrest

end SqlTree
