import SqlTree.Proofs.Tree.Strings
import SqlTree.Token.Query

/-!
# The shape of a list of tokens

The shape of a token is the token without the content of a string literal. Two lists of tokens with
one shape have the same length and differ in string literals only. All ways of putting parts
together keep shapes.

Results:
* `Token.eq_or_string_of_shape_eq`: tokens with one shape are the same or both string literals.
* `Token.map_shape_words`, `Token.map_shape_commaList` and others: the shape of parts put together
  comes from the shapes of the parts.
* `Formula.map_shape_tokens`: the shape of a formula comes from the shapes of its two dates.
-/

namespace SqlTree

namespace Token

/-- A token without the content of a string literal. -/
def shape : Token → Token
  | literal (.string _) => string ""
  | t => t

/-- Tokens with one shape are the same or both string literals. -/
theorem eq_or_string_of_shape_eq {t u : Token} (h : t.shape = u.shape) :
    t = u ∨ ∃ a b, t = string a ∧ u = string b := by
  unfold shape at h
  split at h <;> split at h
  · exact .inr ⟨_, _, rfl, rfl⟩
  · exact .inr ⟨_, "", rfl, h.symm⟩
  · exact .inr ⟨"", _, h, rfl⟩
  · exact .inl h

@[simp] theorem shape_keyword (k : Keyword) : (keyword k).shape = keyword k := rfl

@[simp] theorem shape_symbol (s : Symbol) : (symbol s).shape = symbol s := rfl

@[simp] theorem shape_space : space.shape = space := rfl

@[simp] theorem shape_ident (name : String) : (ident name).shape = ident name := rfl

@[simp] theorem shape_function (name : String) : (function name).shape = function name := rfl

@[simp] theorem shape_raw (sql : String) : (raw sql).shape = raw sql := rfl

@[simp] theorem shape_literal_mapString (f : String → String) (c : Constant) :
    (literal (c.mapString f)).shape = (literal c).shape := by
  cases c <;> rfl

/-! ## Parts put together -/

theorem map_shape_intercalate (separator : List Token) (parts : List (List Token)) :
    (separator.intercalate parts).map shape =
      (separator.map shape).intercalate (parts.map (List.map shape)) := by
  induction parts with
  | nil => rfl
  | cons p ps ih =>
    cases ps with
    | nil => simp [List.intercalate]
    | cons q qs =>
      simp only [List.intercalate, List.map_cons, List.intersperse_cons_cons, List.flatten_cons,
        List.map_append] at ih ⊢
      rw [ih]

@[simp] theorem map_shape_words (parts : List (List Token)) :
    (words parts).map shape = words (parts.map (List.map shape)) :=
  map_shape_intercalate [space] parts

@[simp] theorem map_shape_commaList (parts : List (List Token)) :
    (commaList parts).map shape = commaList (parts.map (List.map shape)) :=
  map_shape_intercalate [symbol .comma, space] parts

@[simp] theorem map_shape_parens (part : List Token) :
    (parens part).map shape = parens (part.map shape) := by
  simp [parens]

@[simp] theorem map_shape_call (name : String) (args : List (List Token)) :
    (call name args).map shape = call name (args.map (List.map shape)) := by
  simp [call]

@[simp] theorem map_shape_operation (left right : List Token) (op : Token) :
    (operation left op right).map shape =
      operation (left.map shape) op.shape (right.map shape) := by
  simp [operation]

@[simp] theorem map_shape_wordIf (condition : Bool) (k : Keyword) :
    (wordIf condition k).map (List.map shape) = wordIf condition k := by
  cases condition <;> rfl

@[simp] theorem map_shape_renamed (part : List Token) (withAs : Bool) (aliasName : Option String) :
    (renamed part withAs aliasName).map shape = renamed (part.map shape) withAs aliasName := by
  cases aliasName with
  | none => rfl
  | some a => simp [renamed]

@[simp] theorem map_shape_phrase (k : Keyword) (isEmpty : Bool) (condition : List Token) :
    (phrase k isEmpty condition).map (List.map shape) = phrase k isEmpty (condition.map shape) := by
  cases isEmpty <;> rfl

@[simp] theorem map_shape_bitAnd (d : Dialect) (left right : List Token) :
    (d.bitAnd left right).map shape = d.bitAnd (left.map shape) (right.map shape) := by
  unfold Dialect.bitAnd
  split <;> simp

/-- A list of values keeps its shape if strings are mapped in its values. -/
theorem map_shape_inList {part part' : List Token} (h : part'.map shape = part.map shape)
    (f : String → String) (values : List Constant) (negated : Bool) :
    (inList part' (values.map (Constant.mapString f)) negated).map shape =
      (inList part values negated).map shape := by
  unfold inList
  rw [List.isEmpty_map]
  split
  · rfl
  · simp [h, Function.comp_def]

end Token

/-! ## Formulas -/

namespace Formula

variable {s s' f f' : List Token}

mutual

/-- The shape of a formula comes from the shapes of its two dates. -/
theorem map_shape_tokens (hs : s'.map Token.shape = s.map Token.shape)
    (hf : f'.map Token.shape = f.map Token.shape) :
    ∀ x : Formula, (x.tokens s' f').map Token.shape = (x.tokens s f).map Token.shape
  | start => hs
  | finish => hf
  | integer _ | text _ | word _ => rfl
  | call name args => by
    rw [tokens, tokens, Token.map_shape_call, Token.map_shape_call,
      map_shape_tokensOfAll hs hf args]
  | operation left op right => by
    rw [tokens, tokens, Token.map_shape_operation, Token.map_shape_operation,
      map_shape_tokens hs hf left, map_shape_tokens hs hf right]
  | extract part date => by simp [tokens, map_shape_tokens hs hf date]
  | cast value type => by simp [tokens, map_shape_tokens hs hf value]

theorem map_shape_tokensOfAll (hs : s'.map Token.shape = s.map Token.shape)
    (hf : f'.map Token.shape = f.map Token.shape) :
    ∀ xs : List Formula, (tokensOfAll s' f' xs).map (List.map Token.shape) =
      (tokensOfAll s f xs).map (List.map Token.shape)
  | [] => rfl
  | x :: xs => by
    rw [tokensOfAll, tokensOfAll, List.map_cons, List.map_cons, map_shape_tokens hs hf x,
      map_shape_tokensOfAll hs hf xs]

end

end Formula

end SqlTree
