import SqlTree.Settings.Template

/-!
# References in texts

A text with references is made of segments: characters without a dollar sign, references with and
without braces, and dollar signs that stand for themselves. Whether a segment ends where it does
depends on what comes behind it, as a name without braces is the longest one. Expanding a text puts
values in place of the references and leaves the other segments as they are.

* `Segment`: a segment of a text, with its characters, its variable and what it is expanded to.
* `Segment.Fits`, `Segment.AllFit`: when a segment ends in front of a rest, and when each of several
  segments does so in front of the later ones.

Results:
* `Template.pieces_append`: the pieces of a text are those of its first segment and of the rest.
* `Template.expand_segments`: what a text is expanded to, or the variable that has no value.
-/

namespace SqlTree

/-- A stretch of a text. -/
inductive Segment where
  /-- Characters without a dollar sign. -/
  | literal (cs : List Char)
  /-- A reference with its name between braces. -/
  | braced (name : List Char)
  /-- A reference with its name right behind the dollar sign. -/
  | bare (name : List Char)
  /-- A dollar sign that stands for itself. -/
  | dollar

namespace Segment

/-- The characters of a segment. -/
def chars : Segment → List Char
  | literal cs => cs
  | braced name => '$' :: '\x7b' :: (name ++ ['\x7d'])
  | bare name => '$' :: name
  | dollar => ['$']

/-- The variable that a segment refers to. -/
def name? : Segment → Option String
  | braced name | bare name => some (String.ofList name)
  | literal _ | dollar => none

/-- The variable that a segment refers to, if it has no value. -/
def unset? (valueOf : String → Option String) (s : Segment) : Option String :=
  s.name?.filter fun name => (valueOf name).isNone

/-- The characters that stand for a segment; none for a variable without a value. -/
def value (valueOf : String → Option String) : Segment → List Char
  | literal cs => cs
  | braced name | bare name => ((valueOf (String.ofList name)).getD "").toList
  | dollar => ['$']

/-- A segment that ends in front of a rest. A name in braces has no closing brace. A name without
braces is not empty, and the rest does not go on with it; behind a lone dollar sign the rest begins
with neither kind of name. -/
def Fits (rest : List Char) : Segment → Prop
  | literal cs => '$' ∉ cs
  | braced name => '\x7d' ∉ name
  | bare name => name ≠ [] ∧ (∀ c ∈ name, Template.isNameChar c = true) ∧
      ∀ c ∈ rest.head?, Template.isNameChar c = false
  | dollar => ∀ c ∈ rest.head?, c ≠ '\x7b' ∧ Template.isNameChar c = false

/-- Each segment ends in front of the characters of the later ones. -/
def AllFit : List Segment → Prop
  | [] => True
  | s :: segments => s.Fits (segments.flatMap chars) ∧ AllFit segments

/-- The pieces of a segment. -/
def pieces : Segment → List Piece
  | literal cs => cs.map .char
  | braced name | bare name => [.reference (String.ofList name)]
  | dollar => [.char '$']

end Segment

namespace Template

/-! ## Pieces -/

theorem isNameChar_openingBrace : isNameChar '\x7b' = false := by decide +kernel

theorem takeWhile_isNameChar_of_head? {cs : List Char} (h : ∀ c ∈ cs.head?, isNameChar c = false) :
    cs.takeWhile isNameChar = [] ∧ cs.dropWhile isNameChar = cs := by
  cases cs with
  | nil => exact ⟨rfl, rfl⟩
  | cons c cs =>
    have hc : ¬isNameChar c = true := by simpa using h c rfl
    exact ⟨List.takeWhile_cons_of_neg hc, List.dropWhile_cons_of_neg hc⟩

theorem pieces_literal {cs : List Char} (h : '$' ∉ cs) (rest : List Char) :
    pieces (cs ++ rest) = cs.map .char ++ pieces rest := by
  induction cs with
  | nil => rfl
  | cons c cs ih =>
    obtain ⟨hc, hcs⟩ := List.ne_and_not_mem_of_not_mem_cons h
    rw [List.cons_append, pieces.eq_4 _ _ (fun _ hd => absurd hd.symm hc) (fun hd => hc hd.symm),
      ih hcs]
    rfl

theorem pieces_braced {name : List Char} (h : '\x7d' ∉ name) (rest : List Char) :
    pieces ('$' :: '\x7b' :: (name ++ '\x7d' :: rest)) =
      .reference (String.ofList name) :: pieces rest := by
  have hname : ∀ c ∈ name, (c != '\x7d') = true := by
    intro c hc
    simpa using ne_of_mem_of_not_mem hc h
  rw [pieces.eq_2, List.takeWhile_append_of_pos hname, List.dropWhile_append_of_pos hname,
    List.takeWhile_cons_of_neg (by simp), List.dropWhile_cons_of_neg (by simp), List.append_nil]
  rfl

theorem pieces_bare {name : List Char} (hne : name ≠ []) (h : ∀ c ∈ name, isNameChar c = true)
    {rest : List Char} (hrest : ∀ c ∈ rest.head?, isNameChar c = false) :
    pieces ('$' :: (name ++ rest)) = .reference (String.ofList name) :: pieces rest := by
  obtain ⟨htake, hdrop⟩ := takeWhile_isNameChar_of_head? hrest
  have hbrace : ∀ cs, name ++ rest = '\x7b' :: cs → False := by
    intro cs hcs
    obtain ⟨c, name, rfl⟩ := List.exists_cons_of_ne_nil hne
    have hfirst : isNameChar '\x7b' = true := (List.cons.inj hcs).1 ▸ h c List.mem_cons_self
    rw [isNameChar_openingBrace] at hfirst
    exact Bool.false_ne_true hfirst
  rw [pieces.eq_3 _ hbrace, List.takeWhile_append_of_pos h, List.dropWhile_append_of_pos h, htake,
    hdrop, List.append_nil, if_neg hne]

theorem pieces_dollar {rest : List Char}
    (h : ∀ c ∈ rest.head?, c ≠ '\x7b' ∧ isNameChar c = false) :
    pieces ('$' :: rest) = .char '$' :: pieces rest := by
  have hbrace : ∀ cs, rest = '\x7b' :: cs → False := by
    rintro cs rfl
    exact (h '\x7b' rfl).1 rfl
  rw [pieces.eq_3 _ hbrace, (takeWhile_isNameChar_of_head? fun c hc => (h c hc).2).1, if_pos rfl]

/-- The pieces of a text are those of its first segment and of the rest. -/
theorem pieces_append {s : Segment} {rest : List Char} (h : s.Fits rest) :
    pieces (s.chars ++ rest) = s.pieces ++ pieces rest := by
  cases s with
  | literal cs => exact pieces_literal h rest
  | braced name =>
    have hchars : (Segment.braced name).chars ++ rest =
        '$' :: '\x7b' :: (name ++ '\x7d' :: rest) := by
      simp [Segment.chars]
    rw [hchars]
    exact pieces_braced h rest
  | bare name => exact pieces_bare h.1 h.2.1 h.2.2
  | dollar => exact pieces_dollar h

theorem pieces_flatMap_chars {segments : List Segment} (h : Segment.AllFit segments) :
    pieces (segments.flatMap Segment.chars) = segments.flatMap Segment.pieces := by
  induction segments with
  | nil => simp [pieces]
  | cons s segments ih =>
    rw [List.flatMap_cons, List.flatMap_cons, pieces_append h.1, ih h.2]

/-! ## Values -/

variable (valueOf : String → Option String)

/-- The characters that pieces stand for, or the first variable without a value. -/
def expandPieces (ps : List Piece) : Except String (List Char) :=
  (ps.mapM (expandPiece valueOf)).map List.flatten

variable {valueOf}

theorem expandPieces_cons {p : Piece} {cs : List Char} (h : expandPiece valueOf p = .ok cs)
    (ps : List Piece) :
    expandPieces valueOf (p :: ps) = (expandPieces valueOf ps).map (cs ++ ·) := by
  rw [expandPieces, expandPieces, List.mapM_cons, h]
  cases ps.mapM (expandPiece valueOf) <;> rfl

theorem expandPieces_map_char (cs : List Char) (ps : List Piece) :
    expandPieces valueOf (cs.map .char ++ ps) = (expandPieces valueOf ps).map (cs ++ ·) := by
  induction cs with
  | nil => cases h : expandPieces valueOf ps <;> simp [h, Except.map]
  | cons c cs ih =>
    rw [List.map_cons, List.cons_append, expandPieces_cons rfl, ih]
    cases expandPieces valueOf ps <;> rfl

theorem expandPieces_reference_of_some {name value : String} (h : valueOf name = some value)
    (ps : List Piece) :
    expandPieces valueOf (.reference name :: ps) =
      (expandPieces valueOf ps).map (value.toList ++ ·) :=
  expandPieces_cons (by simp [expandPiece, h]) ps

theorem expandPieces_reference_of_none {name : String} (h : valueOf name = none)
    (ps : List Piece) : expandPieces valueOf (.reference name :: ps) = .error name := by
  have hpiece : expandPiece valueOf (.reference name) = .error name := by simp [expandPiece, h]
  rw [expandPieces, List.mapM_cons, hpiece]
  rfl

/-- The first segment is expanded in front of the others, unless its variable has no value. -/
theorem expandPieces_append {s : Segment} (h : s.unset? valueOf = none) (ps : List Piece) :
    expandPieces valueOf (s.pieces ++ ps) =
      (expandPieces valueOf ps).map (s.value valueOf ++ ·) := by
  cases s with
  | literal cs => exact expandPieces_map_char cs ps
  | dollar => exact expandPieces_map_char ['$'] ps
  | braced name | bare name =>
    have hset : valueOf (String.ofList name) ≠ none := by
      simpa [Segment.unset?, Segment.name?] using h
    obtain ⟨value, hvalue⟩ := Option.ne_none_iff_exists'.mp hset
    rw [Segment.pieces, List.singleton_append, expandPieces_reference_of_some hvalue,
      Segment.value, hvalue, Option.getD_some]

theorem expandPieces_append_of_unset {s : Segment} {name : String}
    (h : s.unset? valueOf = some name) (ps : List Piece) :
    expandPieces valueOf (s.pieces ++ ps) = .error name := by
  obtain ⟨hvariable, hnone⟩ := Option.filter_eq_some_iff.mp h
  have hvalue : valueOf name = none := Option.isNone_iff_eq_none.mp hnone
  cases s with
  | literal cs => simp [Segment.name?] at hvariable
  | dollar => simp [Segment.name?] at hvariable
  | braced chars | bare chars =>
    obtain rfl := Option.some.inj hvariable
    exact expandPieces_reference_of_none hvalue ps

variable (valueOf)

theorem expandPieces_flatMap_pieces (segments : List Segment) :
    expandPieces valueOf (segments.flatMap Segment.pieces) =
      match segments.findSome? (Segment.unset? valueOf) with
      | some name => .error name
      | none => .ok (segments.flatMap (Segment.value valueOf)) := by
  induction segments with
  | nil => rfl
  | cons s segments ih =>
    rw [List.flatMap_cons, List.flatMap_cons, List.findSome?_cons]
    cases hs : s.unset? valueOf with
    | some name => rw [expandPieces_append_of_unset hs]
    | none =>
      rw [expandPieces_append hs, ih]
      cases segments.findSome? (Segment.unset? valueOf) <;> rfl

/-- A text of segments is expanded to the text of their values, in which nothing is expanded again.
If variables of the text have no value, the first one of them is the error. -/
theorem expand_segments {segments : List Segment} (h : Segment.AllFit segments) :
    expand valueOf (String.ofList (segments.flatMap Segment.chars)) =
      match segments.findSome? (Segment.unset? valueOf) with
      | some name => .error name
      | none => .ok (String.ofList (segments.flatMap (Segment.value valueOf))) := by
  have hexpand : expand valueOf (String.ofList (segments.flatMap Segment.chars)) =
      (expandPieces valueOf (segments.flatMap Segment.pieces)).map String.ofList := by
    rw [expand, String.toList_ofList, pieces_flatMap_chars h, expandPieces]
    cases (segments.flatMap Segment.pieces).mapM (expandPiece valueOf) <;> rfl
  rw [hexpand, expandPieces_flatMap_pieces]
  cases segments.findSome? (Segment.unset? valueOf) <;> rfl

/-- A text with both kinds of references, one of them to a variable with an empty name, and with
dollar signs that stand for themselves. -/
def addressSegments : List Segment :=
  [.literal ['x'], .dollar, .braced ['A'], .bare ['A'], .literal ['-'], .braced [], .dollar]

/-- A value that looks like a reference is not expanded; and the same text where two variables have
no value. -/
theorem expand_segments_address :
    let valueOf : String → Option String := fun name => [("A", "$A"), ("", "e")].lookup name
    Segment.AllFit addressSegments ∧
      expand valueOf "x$$\x7bA\x7d$A-$\x7b\x7d$" = .ok "x$$A$A-e$" ∧
      expand (fun _ => none) "x$$\x7bA\x7d$A-$\x7b\x7d$" = .error "A" := by
  intro valueOf
  have hA : isNameChar 'A' = true := by decide +kernel
  have hdash : isNameChar '-' = false := by decide +kernel
  have hdollar : isNameChar '$' = false := by decide +kernel
  have hfit : Segment.AllFit addressSegments := by
    simp [addressSegments, Segment.AllFit, Segment.Fits, Segment.chars, hA, hdash, hdollar]
  have htext : String.ofList (addressSegments.flatMap Segment.chars) =
      "x$$\x7bA\x7d$A-$\x7b\x7d$" := by decide
  have hvalue : String.ofList (addressSegments.flatMap (Segment.value valueOf)) = "x$$A$A-e$" := by
    decide +kernel
  rw [← htext, expand_segments _ hfit, expand_segments _ hfit, ← hvalue]
  exact ⟨hfit, rfl, rfl⟩

end Template

end SqlTree
