import SqlTree.Proofs.Conditions.Reading
import SqlTree.Proofs.Rendering.ForeignTokens

/-!
# Conditions as they are read

A tree of conditions is written as infix text: its terms, with connectives between them and with
parentheses around each group that has a term. If the text is read back with AND tighter than OR, it
has the value of the tree, whatever the values of the terms are.

* `Condition.terms`: the predicates of a condition at any depth, from left to right;
* `Condition.value?`: the value of a condition, given a value for each of its terms;
* `Condition.words`: what is written for a condition, with its terms as atoms;
* `EndsInFilter`: what is written for a change of the rows that a condition selects.

Results:
* `Condition.reads_words_iff`: the words of a condition are read as its value, and as nothing else.
* `Condition.tokens_forDialect`: the tokens of a condition are those of its words.
* `Condition.reads_of_render`: reading the tokens of a condition gives its value, and the condition
  of an update or delete is left out only if it has no term.
-/

namespace SqlTree

open Token

/-! ## Terms and values -/

namespace Condition

mutual

/-- The predicates of a condition, and after them those of its groups. -/
def terms : Condition → List Predicate
  | ⟨_, predicates, groups⟩ => predicates ++ termsOfAll groups

/-- The predicates of each condition of a list, at any depth. -/
def termsOfAll : List Condition → List Predicate
  | [] => []
  | g :: gs => g.terms ++ termsOfAll gs

end

mutual

/-- The value of a condition, if it has a term. A term is a predicate and its position among all
terms, of which `start` are in front of the condition. -/
def value? (v : Predicate × Nat → Truth) (start : Nat) : Condition → Option Truth
  | ⟨connective, predicates, groups⟩ =>
    connective.combine?
      ((predicates.zipIdx start).map v ++ valuesOfAll v (start + predicates.length) groups)

/-- The values of the conditions of a list that have a term. -/
def valuesOfAll (v : Predicate × Nat → Truth) (start : Nat) : List Condition → List Truth
  | [] => []
  | g :: gs => (g.value? v start).toList ++ valuesOfAll v (start + g.terms.length) gs

end

mutual

/-- What is written for a condition: its terms and, in parentheses, its groups. -/
def words (start : Nat) : Condition → List (Word (Predicate × Nat))
  | ⟨connective, predicates, groups⟩ =>
    connective.join
      ((predicates.zipIdx start).map (fun p => [.atom p]) ++
        wordsOfAll (start + predicates.length) groups)

/-- What is written for each condition of a list that has a term. -/
def wordsOfAll (start : Nat) : List Condition → List (List (Word (Predicate × Nat)))
  | [] => []
  | g :: gs =>
    if g.isEmpty then wordsOfAll start gs
    else (.openParen :: g.words start ++ [.closeParen]) :: wordsOfAll (start + g.terms.length) gs

end

mutual

/-- A condition is empty exactly if it has no term. -/
theorem terms_eq_nil_iff : ∀ c : Condition, c.terms = [] ↔ c.isEmpty = true
  | ⟨connective, predicates, groups⟩ => by
    rw [terms, isEmpty, List.append_eq_nil_iff, Bool.and_eq_true, List.isEmpty_iff,
      termsOfAll_eq_nil_iff groups]

theorem termsOfAll_eq_nil_iff : ∀ gs : List Condition, termsOfAll gs = [] ↔ allEmpty gs = true
  | [] => by simp [termsOfAll, allEmpty]
  | g :: gs => by
    rw [termsOfAll, allEmpty, List.append_eq_nil_iff, Bool.and_eq_true, terms_eq_nil_iff g,
      termsOfAll_eq_nil_iff gs]

end

variable {v : Predicate × Nat → Truth}

mutual

/-- A condition has no value exactly if it is empty. -/
theorem value?_eq_none_iff :
    ∀ (c : Condition) (start : Nat), c.value? v start = none ↔ c.isEmpty = true
  | ⟨connective, predicates, groups⟩, start => by
    rw [value?, isEmpty, Connective.combine?_eq_none_iff, List.append_eq_nil_iff,
      List.map_eq_nil_iff, List.zipIdx_eq_nil_iff, Bool.and_eq_true, List.isEmpty_iff,
      valuesOfAll_eq_nil_iff groups]

theorem valuesOfAll_eq_nil_iff :
    ∀ (gs : List Condition) (start : Nat), valuesOfAll v start gs = [] ↔ allEmpty gs = true
  | [], _ => by simp [valuesOfAll, allEmpty]
  | g :: gs, start => by
    rw [valuesOfAll, allEmpty, List.append_eq_nil_iff, Option.toList_eq_nil_iff, Bool.and_eq_true,
      value?_eq_none_iff g, valuesOfAll_eq_nil_iff gs]

end

/-! ## Words -/

mutual

/-- Every term is an atom of the words once, in the order of the terms. -/
theorem filterMap_atom?_words :
    ∀ (c : Condition) (start : Nat), (c.words start).filterMap Word.atom? = c.terms.zipIdx start
  | ⟨connective, predicates, groups⟩, start => by
    have hown : ((predicates.zipIdx start).map fun p => [Word.atom p]).flatMap
        (List.filterMap Word.atom?) = predicates.zipIdx start := by
      simp [List.flatMap_map, Word.atom?]
    rw [words, terms, Connective.filterMap_atom?_join, List.flatMap_append, List.zipIdx_append,
      hown, flatMap_atom?_wordsOfAll groups]

theorem flatMap_atom?_wordsOfAll :
    ∀ (gs : List Condition) (start : Nat),
      (wordsOfAll start gs).flatMap (List.filterMap Word.atom?) = (termsOfAll gs).zipIdx start
  | [], _ => rfl
  | g :: gs, start => by
    rw [wordsOfAll, termsOfAll, List.zipIdx_append]
    split
    · rename_i hempty
      rw [(terms_eq_nil_iff g).mpr hempty, flatMap_atom?_wordsOfAll gs]
      rfl
    · have hparens (ws : List (Word (Predicate × Nat))) :
          (Word.openParen :: ws ++ [Word.closeParen]).filterMap Word.atom? =
            ws.filterMap Word.atom? := by
        simp [List.filterMap_cons, Word.atom?]
      rw [List.flatMap_cons, hparens, filterMap_atom?_words g, flatMap_atom?_wordsOfAll gs]

end

/-- A list of atoms is a list of factors. -/
theorem forall₂_reads_atoms (ps : List (Predicate × Nat)) :
    List.Forall₂ (Reads .factor) ((ps.map fun p => [Word.atom p]).map (List.map (Word.map v)))
      (ps.map v) := by
  induction ps with
  | nil => exact .nil
  | cons p ps ih => exact .cons (.atom (v p)) ih

mutual

/-- The words of a condition are read as its value. -/
theorem reads_words :
    ∀ (c : Condition) (start : Nat) (t : Truth), c.value? v start = some t →
      Reads .condition ((c.words start).map (Word.map v)) t
  | ⟨connective, predicates, groups⟩, start, t, h => by
    rw [words, Connective.map_join, List.map_append]
    exact connective.reads_join
      (List.rel_append (forall₂_reads_atoms _) (forall₂_reads_wordsOfAll groups _)) h

theorem forall₂_reads_wordsOfAll :
    ∀ (gs : List Condition) (start : Nat),
      List.Forall₂ (Reads .factor) ((wordsOfAll start gs).map (List.map (Word.map v)))
        (valuesOfAll v start gs)
  | [], _ => .nil
  | g :: gs, start => by
    rw [wordsOfAll, valuesOfAll]
    cases hvalue : g.value? v start with
    | none =>
      have hempty := (value?_eq_none_iff g start).mp hvalue
      rw [if_pos hempty, (terms_eq_nil_iff g).mpr hempty]
      exact forall₂_reads_wordsOfAll gs start
    | some t =>
      have hempty : ¬g.isEmpty = true := by
        rw [← value?_eq_none_iff g start, hvalue]
        exact Option.some_ne_none t
      have hgroup : Reads .factor
          ((Word.openParen :: g.words start ++ [Word.closeParen]).map (Word.map v)) t := by
        rw [List.cons_append, List.map_cons, List.map_append]
        exact .parens (reads_words g start t hvalue)
      rw [if_neg hempty, List.map_cons]
      exact .cons hgroup (forall₂_reads_wordsOfAll gs _)

end

theorem wordsOfAll_eq_nil {gs : List Condition} (h : allEmpty gs = true) (start : Nat) :
    wordsOfAll start gs = [] := by
  induction gs with
  | nil => rfl
  | cons g gs ih =>
    rw [allEmpty, Bool.and_eq_true] at h
    rw [wordsOfAll, if_pos h.1, ih h.2]

/-- Nothing is written for an empty condition. -/
theorem words_eq_nil {c : Condition} (h : c.isEmpty = true) (start : Nat) :
    c.words start = [] := by
  obtain ⟨connective, predicates, groups⟩ := c
  rw [isEmpty, Bool.and_eq_true, List.isEmpty_iff] at h
  obtain ⟨rfl, hgroups⟩ := h
  rw [words, wordsOfAll_eq_nil hgroups]
  rfl

/-- The words of a condition are read as its value, and as nothing else. -/
theorem reads_words_iff (c : Condition) (start : Nat) (t : Truth) :
    Reads .condition ((c.words start).map (Word.map v)) t ↔ c.value? v start = some t := by
  refine ⟨fun h => ?_, reads_words c start t⟩
  cases hvalue : c.value? v start with
  | some s => rw [(reads_words c start s hvalue).unique h]
  | none =>
    have hnil := words_eq_nil ((value?_eq_none_iff c start).mp hvalue) start
    rw [hnil] at h
    exact absurd rfl h.ne_nil

end Condition

/-! ## Tokens -/

/-- The tokens of a word, given those of its atom. -/
def Word.tokens {α : Type} (spell : α → List Token) : Word α → List Token
  | atom a => spell a
  | connective k => [space, keyword k.keyword, space]
  | openParen => [symbol .openParen]
  | closeParen => [symbol .closeParen]

/-- Joined parts are written with the connective between each two. -/
theorem Connective.tokens_join {α : Type} (k : Connective) (spell : α → List Token)
    (parts : List (List (Word α))) :
    (k.join parts).flatMap (Word.tokens spell) =
      [space, Token.keyword k.keyword, space].intercalate
        (parts.map (List.flatMap (Word.tokens spell))) := by
  cases parts with
  | nil => rfl
  | cons part parts =>
    rw [join, List.map_cons, intercalate_cons, List.flatMap_append, List.flatMap_assoc,
      List.flatMap_map]
    rfl

variable (d : Dialect)

namespace Condition

theorem forDialect_eq (k : Connective) (ps : List Predicate) (gs : List Condition) :
    (Condition.mk k ps gs).forDialect d =
      ⟨k, ps.map (Predicate.forDialect d), gs.map (Condition.forDialect d)⟩ := by
  unfold forDialect Predicate.forDialect
  split
  · rw [expandPages, Predicate.expandPagesOfAll_eq_map, expandPagesOfAll_eq_map]
  · rw [List.map_id', List.map_id']

/-- The tokens that a dialect writes for a term. -/
def termTokens (p : Predicate × Nat) : List Token := (p.1.forDialect d).tokens d

mutual

/-- The tokens of a condition are those of its words. -/
theorem tokens_forDialect :
    ∀ (c : Condition) (start : Nat),
      (c.forDialect d).tokens d = (c.words start).flatMap (Word.tokens (termTokens d))
  | ⟨connective, predicates, groups⟩, start => by
    have hspell : List.flatMap (Word.tokens (termTokens d)) ∘ (fun p => [Word.atom p]) =
        (Predicate.tokens d ∘ Predicate.forDialect d) ∘ Prod.fst := by
      funext p
      simp [Word.tokens, termTokens]
    have hown : ((predicates.zipIdx start).map fun p => [Word.atom p]).map
        (List.flatMap (Word.tokens (termTokens d))) =
          (predicates.map (Predicate.forDialect d)).map (Predicate.tokens d) := by
      rw [List.map_map, hspell, ← List.map_map, List.zipIdx_map_fst, List.map_map]
    rw [forDialect_eq, tokens, words, Connective.tokens_join, List.map_append, hown,
      Predicate.tokensOfAll_eq_map, tokensOfGroups_forDialect groups]

theorem tokensOfGroups_forDialect :
    ∀ (gs : List Condition) (start : Nat),
      tokensOfGroups d (gs.map (Condition.forDialect d)) =
        (wordsOfAll start gs).map (List.flatMap (Word.tokens (termTokens d)))
  | [], _ => rfl
  | g :: gs, start => by
    rw [List.map_cons, tokensOfGroups, wordsOfAll, isEmpty_forDialect]
    split
    · exact tokensOfGroups_forDialect gs start
    · have hparens (ws : List (Word (Predicate × Nat))) :
          (Word.openParen :: ws ++ [Word.closeParen]).flatMap (Word.tokens (termTokens d)) =
            parens (ws.flatMap (Word.tokens (termTokens d))) := by
        simp [Word.tokens, parens]
      rw [List.map_cons, hparens, tokens_forDialect g start, tokensOfGroups_forDialect gs]

end

mutual

/-- The obstacles in a condition are those in its terms. -/
theorem obstacles_forDialect :
    ∀ c : Condition, (c.forDialect d).obstacles d =
      c.terms.flatMap fun p => (p.forDialect d).obstacles d
  | ⟨connective, predicates, groups⟩ => by
    rw [forDialect_eq, obstacles, terms, Predicate.obstaclesOfAll_eq_flatMap, List.flatMap_map,
      List.flatMap_append, obstaclesOfAll_forDialect groups]

theorem obstaclesOfAll_forDialect :
    ∀ gs : List Condition, obstaclesOfAll d (gs.map (Condition.forDialect d)) =
      (termsOfAll gs).flatMap fun p => (p.forDialect d).obstacles d
  | [] => rfl
  | g :: gs => by
    rw [List.map_cons, obstaclesOfAll, termsOfAll, List.flatMap_append, obstacles_forDialect g,
      obstaclesOfAll_forDialect gs]

end

end Condition

/-! ## Rendering -/

variable {d} {ts : List Token}

namespace Condition

variable {c : Condition}

/-- A condition renders exactly if each of its terms does. -/
theorem render_eq_ok_iff :
    c.render d = .ok ts ↔
      (∀ p ∈ c.terms, p.render d = .ok ((p.forDialect d).tokens d)) ∧
        (c.forDialect d).tokens d = ts := by
  have hterm (p : Predicate) :
      p.render d = .ok ((p.forDialect d).tokens d) ↔ (p.forDialect d).obstacles d = [] :=
    firstObstacle_map_eq_ok_iff.trans (and_iff_left rfl)
  have hterms : (c.forDialect d).obstacles d = [] ↔
      ∀ p ∈ c.terms, p.render d = .ok ((p.forDialect d).tokens d) := by
    simp only [hterm, obstacles_forDialect, List.flatMap_eq_nil_iff]
  rw [← hterms]
  exact firstObstacle_map_eq_ok_iff

end Condition

/-- What is written for a change of the rows that a condition selects: something without a WHERE
outside of parentheses, and behind it WHERE and the condition, or nothing more if the condition has
no term at any depth. -/
def EndsInFilter (d : Dialect) (c : Condition) (ts : List Token) : Prop :=
  ∃ front part, c.render d = .ok part ∧ .WHERE ∉ topClauses front ∧
    ts = front ++ if c.terms = [] then [] else [space, keyword .WHERE, space] ++ part

theorem endsInFilter_words {c : Condition} {ps : List (List Token)} {ks : List Keyword}
    (hne : ps ≠ []) (hps : Outline (words ps) ks) (hks : .WHERE ∉ ks)
    (hc : filterObstacles d c = []) :
    EndsInFilter d c (words (ps ++ filterWords d c)) ∧
      (.WHERE ∈ topClauses (words (ps ++ filterWords d c)) ↔ c.terms ≠ []) := by
  have hpart : c.render d = .ok ((c.forDialect d).tokens d) :=
    firstObstacle_map_eq_ok_iff.mpr ⟨hc, rfl⟩
  refine ⟨⟨words ps, _, hpart, by rwa [hps.topClauses_eq], ?_⟩, ?_⟩
  · unfold filterWords phrase
    split
    · rename_i hempty
      rw [if_pos ((Condition.terms_eq_nil_iff c).mpr hempty), List.append_nil, List.append_nil]
    · rename_i hempty
      rw [if_neg (mt (Condition.terms_eq_nil_iff c).mp hempty),
        Outline.words_append_of_ne_nil hne (List.cons_ne_nil _ _), words_cons_cons, words_singleton]
      rfl
  · rw [(hps.words_append (outline_filterWords d c)).topClauses_eq, Ne,
      Condition.terms_eq_nil_iff]
    cases c.isEmpty <;> simp [hks]

/-- A condition that renders is written as words whose atoms are its terms, each once, in their
order and with the tokens that the term has by itself. Read with AND tighter than OR, the words have
a value exactly if the condition has it, whatever the values of the terms are. An update and a
delete that render end in their condition, and have a WHERE outside of parentheses exactly if it has
a term at any depth. -/
theorem Condition.reads_of_render :
    (∀ (c : Condition) ts, c.render d = .ok ts →
      ∃ words : List (Word (Predicate × Nat)),
        ts = words.flatMap (Word.tokens fun p => (p.1.forDialect d).tokens d) ∧
        (∀ p ∈ c.terms, p.render d = .ok ((p.forDialect d).tokens d)) ∧
        words.filterMap Word.atom? = c.terms.zipIdx ∧
        ∀ v t, Reads .condition (words.map (Word.map v)) t ↔ c.value? v 0 = some t) ∧
    (∀ u ts, (Statement.update u).render d = .ok ts →
      EndsInFilter d u.filter ts ∧ (.WHERE ∈ topClauses ts ↔ u.filter.terms ≠ [])) ∧
    (∀ x ts, (Statement.delete x).render d = .ok ts →
      EndsInFilter d x.filter ts ∧ (.WHERE ∈ topClauses ts ↔ x.filter.terms ≠ [])) := by
  refine ⟨fun c ts h => ?_, fun u ts h => ?_, fun x ts h => ?_⟩
  · obtain ⟨hterms, rfl⟩ := render_eq_ok_iff.mp h
    exact ⟨c.words 0, tokens_forDialect d c 0, hterms, filterMap_atom?_words c 0,
      fun v t => reads_words_iff c 0 t⟩
  · obtain ⟨hobstacles, rfl⟩ := firstObstacle_map_eq_ok_iff.mp h
    exact endsInFilter_words (List.cons_ne_nil _ _) (u.sealed_front d) List.not_mem_nil
      (List.append_eq_nil_iff.mp hobstacles).2
  · obtain ⟨hobstacles, rfl⟩ := firstObstacle_map_eq_ok_iff.mp h
    exact endsInFilter_words (List.cons_ne_nil _ _) x.outline_front (by decide) hobstacles

/-- Open orders from one of two cities. The last group has no term. -/
def Condition.openInTwoCities : Condition :=
  let isCity (name : String) : Predicate :=
    .compare (.field none "city") .equal (.constant (.string name))
  ⟨.and, [.isNull (.field none "closed") false],
    [⟨.or, [isCity "Oslo", isCity "Bergen"], []⟩, ⟨.or, [], [.empty]⟩]⟩

/-- The condition is written with three atoms. If it is unknown whether an order from Oslo is open,
it is unknown whether the order is deleted. -/
theorem Condition.reads_of_render_openInTwoCities :
    ∃ part ts, ∃ words : List (Word (Predicate × Nat)),
      openInTwoCities.render .oracle = .ok part ∧
      (Statement.delete ⟨"orders", none, openInTwoCities⟩).render .oracle = .ok ts ∧
      part = words.flatMap (Word.tokens fun p => (p.1.forDialect .oracle).tokens .oracle) ∧
      (words.filterMap Word.atom?).length = 3 ∧
      Reads .condition
        (words.map (Word.map fun p => [.unknown, .yes, .no].getD p.2 .no)) .unknown ∧
      EndsInFilter .oracle openInTwoCities ts ∧ .WHERE ∈ topClauses ts := by
  have hrender : openInTwoCities.render .oracle =
      .ok ((openInTwoCities.forDialect .oracle).tokens .oracle) := rfl
  have hdelete : (Statement.delete ⟨"orders", none, openInTwoCities⟩).render .oracle =
      .ok ((Statement.delete ⟨"orders", none, openInTwoCities⟩).tokens .oracle) := rfl
  obtain ⟨hconditions, -, hdeletes⟩ := reads_of_render (d := .oracle)
  obtain ⟨words, htokens, -, hatoms, hreads⟩ := hconditions _ _ hrender
  obtain ⟨hends, hwhere⟩ := hdeletes _ _ hdelete
  refine ⟨_, _, words, hrender, hdelete, htokens, by rw [hatoms]; rfl, (hreads _ _).mpr ?_, hends,
    hwhere.mpr (List.cons_ne_nil _ _)⟩
  decide

end SqlTree
