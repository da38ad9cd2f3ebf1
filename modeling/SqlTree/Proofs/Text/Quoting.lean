import SqlTree.Dialect.Basic

/-!
# Reading quoted texts

Names and strings are written between quotes, with the closing quote doubled inside. A database
finds the end of such a text at the first closing quote that is not doubled. In a string MySQL
looks for escapes as well: a backslash and the character after it belong together, so that a
backslash in front of the closing quote hides it.

* `Dialect.readName?`, `Dialect.readString?`: how each database reads one quoted name and one string
  from the front of a text;
* `Text.BackslashesKept`: every backslash stands in front of a wildcard, where it is no escape.

Results:
* `Text.takeQuoted?_eq_some_iff`: a text is read between quotes exactly if it was written between
  them, and no closing quote follows.
* `Dialect.readName?_and_readString?_eq_some_iff`: each database reads a name as it was written, and
  each but MySQL a string.
* `Dialect.readString?_mySql_eq_some_iff`: MySQL reads a string as it was written exactly if its
  backslashes are kept.
* `Dialect.readString?_mySql_breakout`: a string that MySQL leaves too early.
-/

namespace SqlTree

namespace Text

/-- What is read by a reader that passes on the rest. -/
theorem exists_of_map_read {read : Option (List Char × List Char)} {body rest : List Char}
    (f : List Char → List Char)
    (h : (read.map fun (inner, after) => (f inner, after)) = some (body, rest)) :
    ∃ inner, read = some (inner, rest) ∧ body = f inner := by
  obtain ⟨⟨inner, after⟩, hread, heq⟩ := Option.map_eq_some_iff.mp h
  obtain ⟨rfl, rfl⟩ := Prod.mk.inj heq
  exact ⟨inner, hread, rfl⟩

/-! ## Doubled quotes -/

theorem doubled_cons_self (closing : Char) (cs : List Char) :
    doubled closing (closing :: cs) = closing :: closing :: doubled closing cs := by
  simp [doubled_cons]

theorem doubled_cons_of_ne {closing c : Char} (h : c ≠ closing) (cs : List Char) :
    doubled closing (c :: cs) = c :: doubled closing cs := by
  simp [doubled_cons, h]

theorem readBody?_of_ne {closing c : Char} (h : c ≠ closing) (cs : List Char) :
    readBody? closing (c :: cs) =
      (readBody? closing cs).map fun (body, rest) => (c :: body, rest) := by
  rw [readBody?.eq_def]
  exact if_neg h

theorem readBody?_closing {closing : Char} {rest : List Char} (h : rest.head? ≠ some closing) :
    readBody? closing (closing :: rest) = some ([], rest) := by
  cases rest with
  | nil => simp [readBody?]
  | cons c rest =>
    have hc : c ≠ closing := by simpa using h
    simp [readBody?, hc]

/-- What was written between quotes is read back, if no closing quote follows. -/
theorem readBody?_doubled {closing : Char} {rest : List Char} (h : rest.head? ≠ some closing)
    (cs : List Char) :
    readBody? closing (doubled closing cs ++ closing :: rest) = some (cs, rest) := by
  induction cs with
  | nil => exact readBody?_closing h
  | cons c cs ih =>
    by_cases hc : c = closing
    · subst hc
      simp [doubled_cons_self, readBody?, ih]
    · simp [doubled_cons_of_ne hc, readBody?_of_ne hc, ih]

/-- Nothing else is read: in front of the rest stands what was read, with its closing quotes
doubled, and one closing quote. -/
theorem eq_doubled_of_readBody? {closing : Char} {cs body rest : List Char}
    (h : readBody? closing cs = some (body, rest)) :
    cs = doubled closing body ++ closing :: rest ∧ rest.head? ≠ some closing := by
  induction cs using readBody?.induct closing generalizing body with
  | case1 => simp [readBody?] at h
  | case2 =>
    obtain ⟨rfl, rfl⟩ : [] = body ∧ [] = rest := by simpa [readBody?] using h
    simp
  | case3 cs ih =>
    simp only [readBody?, if_true] at h
    obtain ⟨inner, hinner, rfl⟩ := exists_of_map_read (closing :: ·) h
    obtain ⟨rfl, hrest⟩ := ih hinner
    exact ⟨by rw [doubled_cons_self, List.cons_append, List.cons_append], hrest⟩
  | case4 c cs hc =>
    obtain ⟨rfl, rfl⟩ : [] = body ∧ c :: cs = rest := by simpa [readBody?, hc] using h
    exact ⟨rfl, by simpa using hc⟩
  | case5 c cs hc ih =>
    rw [readBody?_of_ne hc] at h
    obtain ⟨inner, hinner, rfl⟩ := exists_of_map_read (c :: ·) h
    obtain ⟨rfl, hrest⟩ := ih hinner
    exact ⟨by rw [doubled_cons_of_ne hc, List.cons_append], hrest⟩

/-- Reads one text between quotes. -/
def takeQuoted? (opening closing : Char) (text : String) : Option (String × String) :=
  (readQuoted? opening closing text.toList).map fun (body, rest) =>
    (String.ofList body, String.ofList rest)

theorem toList_quoted_append (opening closing : Char) (s r : String) :
    (quoted opening closing s ++ r).toList =
      opening :: (doubled closing s.toList ++ closing :: r.toList) := by
  simp [quoted]

/-- A text is read between quotes exactly if it was written between them, and no closing quote
follows. -/
theorem takeQuoted?_eq_some_iff {opening closing : Char} {text s r : String} :
    takeQuoted? opening closing text = some (s, r) ↔
      text = quoted opening closing s ++ r ∧ r.toList.head? ≠ some closing := by
  constructor
  · intro h
    obtain ⟨⟨body, rest⟩, hread, heq⟩ := Option.map_eq_some_iff.mp h
    obtain ⟨rfl, rfl⟩ := Prod.mk.inj heq
    cases htext : text.toList with
    | nil => simp [htext, readQuoted?] at hread
    | cons c cs =>
      rw [htext, readQuoted?] at hread
      split at hread
      · rename_i hc
        obtain ⟨rfl, hrest⟩ := eq_doubled_of_readBody? hread
        refine ⟨String.toList_inj.mp ?_, by rwa [String.toList_ofList]⟩
        rw [toList_quoted_append, htext, hc, String.toList_ofList, String.toList_ofList]
      · contradiction
  · rintro ⟨rfl, hr⟩
    rw [takeQuoted?, toList_quoted_append, readQuoted?, if_pos rfl, readBody?_doubled hr]
    simp

/-! ## Escapes -/

/-- What MySQL reads for a backslash and the character after it: some letters and the zero name a
control character, a wildcard keeps its backslash, and any other character stands for itself. -/
def escapedChars (c : Char) : List Char :=
  match c with
  | '0' => ['\x00']
  | 'b' => ['\x08']
  | 'n' => ['\n']
  | 'r' => ['\r']
  | 't' => ['\t']
  | 'Z' => ['\x1a']
  | '%' | '_' => ['\x5c', c]
  | c => [c]

/-- The characters of a string up to the closing quote, and what follows it, where a backslash
escapes the character after it and a doubled quote stands for one. -/
def readEscaped? : List Char → Option (List Char × List Char)
  | [] => none
  | c :: cs =>
    if c = '\x5c' then
      match cs with
      | [] => none
      | c' :: cs' => (readEscaped? cs').map fun (body, rest) => (escapedChars c' ++ body, rest)
    else if c = '\x27' then
      match cs with
      | [] => some ([], [])
      | c' :: cs' =>
        if c' = '\x27' then (readEscaped? cs').map fun (body, rest) => ('\x27' :: body, rest)
        else some ([], c' :: cs')
    else (readEscaped? cs).map fun (body, rest) => (c :: body, rest)

/-- Reads one string with escapes. -/
def takeEscaped? (text : String) : Option (String × String) :=
  match text.toList with
  | [] => none
  | c :: cs =>
    if c = '\x27' then
      (readEscaped? cs).map fun (body, rest) => (String.ofList body, String.ofList rest)
    else none

/-- Whether a character is a wildcard of a search pattern. -/
def IsWildcard (c : Char) : Prop := c = '%' ∨ c = '_'

/-- Every backslash stands in front of a wildcard. -/
def BackslashesKept (cs : List Char) : Prop :=
  ∀ before after, cs = before ++ '\x5c' :: after → ∃ c ∈ after.head?, IsWildcard c

theorem backslashesKept_nil : BackslashesKept [] := by
  intro before after h
  simp at h

theorem backslashesKept_cons_iff {c : Char} {cs : List Char} :
    BackslashesKept (c :: cs) ↔
      (c = '\x5c' → ∃ c' ∈ cs.head?, IsWildcard c') ∧ BackslashesKept cs := by
  constructor
  · intro h
    refine ⟨fun hc => h [] cs (by rw [hc]; rfl), fun before after hsplit => ?_⟩
    exact h (c :: before) after (by rw [hsplit]; rfl)
  · rintro ⟨hc, hcs⟩ before after hsplit
    cases before with
    | nil =>
      obtain ⟨rfl, rfl⟩ := List.cons_eq_cons.mp hsplit
      exact hc rfl
    | cons b before =>
      obtain ⟨-, rfl⟩ := List.cons_eq_cons.mp hsplit
      exact hcs before after rfl

theorem escapedChars_of_isWildcard {c : Char} (h : IsWildcard c) :
    escapedChars c = ['\x5c', c] := by
  rcases h with rfl | rfl <;> rfl

theorem escapedChars_ne_nil (c : Char) : escapedChars c ≠ [] := by
  unfold escapedChars
  split <;> exact List.cons_ne_nil _ _

theorem head?_escapedChars_ne {c : Char} (h : ¬IsWildcard c) (hc : c ≠ '\x5c') :
    (escapedChars c).head? ≠ some '\x5c' := by
  unfold escapedChars
  split <;> simp_all [IsWildcard]

/-- What is read for an escape is not written with more characters than the escape. -/
theorem length_doubled_escapedChars (c : Char) :
    (doubled '\x27' (escapedChars c)).length ≤ 2 := by
  unfold escapedChars
  split <;> simp [doubled_cons]
  split <;> simp

theorem doubled_append (closing : Char) (cs ds : List Char) :
    doubled closing (cs ++ ds) = doubled closing cs ++ doubled closing ds :=
  List.flatMap_append

theorem readEscaped?_of_ne {c : Char} (hc : c ≠ '\x5c') (hq : c ≠ '\x27') (cs : List Char) :
    readEscaped? (c :: cs) = (readEscaped? cs).map fun (body, rest) => (c :: body, rest) := by
  rw [readEscaped?.eq_def]
  simp only [if_neg hc, if_neg hq]

theorem readEscaped?_quote_of_head?_eq {cs : List Char} (h : cs.head? = some '\x27') :
    readEscaped? ('\x27' :: cs) =
      (readEscaped? cs.tail).map fun (body, rest) => ('\x27' :: body, rest) := by
  obtain ⟨cs, rfl⟩ := List.head?_eq_some_iff.mp h
  simp [readEscaped?]

theorem readEscaped?_quote_of_head?_ne {cs : List Char} (h : cs.head? ≠ some '\x27') :
    readEscaped? ('\x27' :: cs) = some ([], cs) := by
  cases cs with
  | nil => simp [readEscaped?]
  | cons c cs =>
    have hc : c ≠ '\x27' := by simpa using h
    simp [readEscaped?, hc]

/-- What is read is not written with more characters than were read. -/
theorem length_le_of_readEscaped? {cs body rest : List Char}
    (h : readEscaped? cs = some (body, rest)) :
    (doubled '\x27' body).length + 1 + rest.length ≤ cs.length := by
  induction cs using readEscaped?.induct generalizing body with
  | case1 => simp [readEscaped?] at h
  | case2 => simp [readEscaped?] at h
  | case3 c cs ih =>
    simp only [readEscaped?, if_true] at h
    obtain ⟨inner, hinner, rfl⟩ := exists_of_map_read (escapedChars c ++ ·) h
    have hc := length_doubled_escapedChars c
    have hcs := ih hinner
    simp only [doubled_append, List.length_append, List.length_cons]
    omega
  | case4 =>
    obtain ⟨rfl, rfl⟩ : [] = body ∧ [] = rest := by simpa [readEscaped?] using h
    simp
  | case5 cs _ ih =>
    rw [readEscaped?_quote_of_head?_eq rfl] at h
    obtain ⟨inner, hinner, rfl⟩ := exists_of_map_read ('\x27' :: ·) h
    have hcs := ih hinner
    simp only [doubled_cons_self, List.length_cons]
    omega
  | case6 c cs hc =>
    rw [readEscaped?_quote_of_head?_ne (by simpa using hc)] at h
    obtain ⟨rfl, rfl⟩ := Prod.mk.inj (Option.some.inj h)
    simp only [doubled_nil, List.length_nil, List.length_cons]
    omega
  | case7 c cs hc hq ih =>
    rw [readEscaped?_of_ne hc hq] at h
    obtain ⟨inner, hinner, rfl⟩ := exists_of_map_read (c :: ·) h
    have hcs := ih hinner
    rw [doubled_cons_of_ne hq]
    simp only [List.length_cons]
    omega

theorem readEscaped?_backslash (c : Char) (cs : List Char) :
    readEscaped? ('\x5c' :: c :: cs) =
      (readEscaped? cs).map fun (body, rest) => (escapedChars c ++ body, rest) := by
  simp [readEscaped?]

/-- A backslash is read back exactly if a wildcard follows: before any other character it is lost,
and two of them become one, which leaves too few characters for the rest. -/
theorem readEscaped?_backslash_eq_some_iff {cs rest : List Char} :
    readEscaped? ('\x5c' :: (doubled '\x27' cs ++ '\x27' :: rest)) = some ('\x5c' :: cs, rest) ↔
      (∃ c ∈ cs.head?, IsWildcard c) ∧
        readEscaped? (doubled '\x27' cs ++ '\x27' :: rest) = some (cs, rest) := by
  cases cs with
  | nil =>
    rw [doubled_nil, List.nil_append, readEscaped?_backslash]
    simp [escapedChars]
  | cons c cs =>
    by_cases hw : IsWildcard c
    · have hc : c ≠ '\x5c' := by rintro rfl; simp [IsWildcard] at hw
      have hq : c ≠ '\x27' := by rintro rfl; simp [IsWildcard] at hw
      rw [doubled_cons_of_ne hq, List.cons_append, readEscaped?_backslash,
        readEscaped?_of_ne hc hq, escapedChars_of_isWildcard hw]
      simp [hw]
    · have hhead : ¬∃ c' ∈ (c :: cs).head?, IsWildcard c' := by simpa using hw
      refine iff_of_false (fun h => ?_) fun h => hhead h.1
      obtain ⟨more, hmore⟩ : ∃ more, doubled '\x27' (c :: cs) = c :: more := by
        rw [doubled_cons]
        split <;> exact ⟨_, rfl⟩
      rw [hmore, List.cons_append, readEscaped?_backslash] at h
      obtain ⟨inner, hinner, heq⟩ := exists_of_map_read (escapedChars c ++ ·) h
      by_cases hc : c = '\x5c'
      · subst hc
        obtain rfl : inner = '\x5c' :: cs := by simpa [escapedChars] using heq.symm
        have hlength := length_le_of_readEscaped? hinner
        rw [doubled_cons_of_ne (by decide)] at hmore hlength
        obtain ⟨-, rfl⟩ := List.cons_eq_cons.mp hmore
        simp only [List.length_append, List.length_cons] at hlength
        omega
      · obtain ⟨c', cs', hesc⟩ := List.exists_cons_of_ne_nil (escapedChars_ne_nil c)
        have hfirst := head?_escapedChars_ne hw hc
        rw [hesc, List.cons_append] at heq
        rw [hesc] at hfirst
        exact hfirst (congrArg some (List.cons_eq_cons.mp heq).1.symm)

/-- MySQL reads back what was written between quotes exactly if all backslashes are kept, and no
quote follows. -/
theorem readEscaped?_doubled_eq_some_iff {cs rest : List Char} :
    readEscaped? (doubled '\x27' cs ++ '\x27' :: rest) = some (cs, rest) ↔
      BackslashesKept cs ∧ rest.head? ≠ some '\x27' := by
  induction cs with
  | nil =>
    by_cases hr : rest.head? = some '\x27'
    · simp [hr, readEscaped?_quote_of_head?_eq hr]
    · simp [hr, readEscaped?_quote_of_head?_ne hr, backslashesKept_nil]
  | cons c cs ih =>
    rw [backslashesKept_cons_iff, and_assoc, ← ih]
    by_cases hq : c = '\x27'
    · subst hq
      rw [doubled_cons_self, List.cons_append, List.cons_append,
        readEscaped?_quote_of_head?_eq rfl]
      simp
    · rw [doubled_cons_of_ne hq, List.cons_append]
      by_cases hc : c = '\x5c'
      · subst hc
        simpa using readEscaped?_backslash_eq_some_iff
      · rw [readEscaped?_of_ne hc hq]
        simp [hc]

theorem takeEscaped?_quoted_append_eq_some_iff {s r : String} :
    takeEscaped? (quoted '\x27' '\x27' s ++ r) = some (s, r) ↔
      BackslashesKept s.toList ∧ r.toList.head? ≠ some '\x27' := by
  rw [← readEscaped?_doubled_eq_some_iff, takeEscaped?, toList_quoted_append]
  constructor
  · intro h
    obtain ⟨⟨body, rest⟩, hread, heq⟩ := Option.map_eq_some_iff.mp h
    obtain ⟨rfl, rfl⟩ := Prod.mk.inj heq
    simpa using hread
  · intro h
    simp [h]

/-! ## National strings -/

/-- A text without the mark of a national string in front. -/
def withoutMark (text : String) : String :=
  match text.toList with
  | 'N' :: cs => String.ofList cs
  | _ => text

theorem withoutMark_quoted (s r : String) :
    withoutMark (quoted '\x27' '\x27' s ++ r) = quoted '\x27' '\x27' s ++ r := by
  rw [withoutMark, toList_quoted_append]
  rfl

theorem withoutMark_marked (text : String) : withoutMark ("N" ++ text) = text := by
  simp [withoutMark]

end Text

/-! ## Databases -/

namespace Dialect

/-- Reads one name in the quotes of a database. -/
def readName? (d : Dialect) (text : String) : Option (String × String) :=
  match d with
  | sqlServer => Text.takeQuoted? '[' ']' text
  | mySql => Text.takeQuoted? '\x60' '\x60' text
  | oracle | postgres => Text.takeQuoted? '\x22' '\x22' text

/-- Reads one string as a database does by default: in Postgres and Oracle only quotes are special,
SQL Server takes the mark of a national string in front, and MySQL takes escapes. -/
def readString? (d : Dialect) (text : String) : Option (String × String) :=
  match d with
  | sqlServer => Text.takeQuoted? '\x27' '\x27' (Text.withoutMark text)
  | mySql => Text.takeEscaped? text
  | oracle | postgres => Text.takeQuoted? '\x27' '\x27' text

variable {d : Dialect} {text s r : String}

/-- A name is read exactly if it was written, and no closing quote follows. -/
theorem readName?_eq_some_iff :
    d.readName? text = some (s, r) ↔
      text = d.nameText s ++ r ∧ r.toList.head? ≠ some d.nameQuotes.2 := by
  cases d <;> exact Text.takeQuoted?_eq_some_iff

/-- SQL Server reads a string in quotes with or without a mark. -/
theorem readString?_sqlServer_eq_some_iff {mark : String} (h : mark = "" ∨ mark = "N") :
    sqlServer.readString? (mark ++ Text.quoted '\x27' '\x27' s ++ r) = some (s, r) ↔
      r.toList.head? ≠ some '\x27' := by
  have hmark : Text.withoutMark (mark ++ Text.quoted '\x27' '\x27' s ++ r) =
      Text.quoted '\x27' '\x27' s ++ r := by
    rcases h with rfl | rfl
    · rw [String.empty_append, Text.withoutMark_quoted]
    · rw [String.append_assoc, Text.withoutMark_marked]
  rw [readString?, hmark, Text.takeQuoted?_eq_some_iff]
  exact and_iff_right rfl

theorem exists_mark_of_stringText (d : Dialect) (s : String) :
    ∃ mark, (mark = "" ∨ d = sqlServer ∧ mark = "N") ∧
      d.stringText s = mark ++ Text.quoted '\x27' '\x27' s := by
  unfold stringText
  split
  · rename_i h
    exact ⟨"N", .inr ⟨h.1, rfl⟩, rfl⟩
  · exact ⟨"", .inl rfl, String.empty_append.symm⟩

/-- A string that was written for a database other than MySQL is read, unless a quote follows. -/
theorem readString?_stringText_eq_some_iff (h : d ≠ mySql) :
    d.readString? (d.stringText s ++ r) = some (s, r) ↔ r.toList.head? ≠ some '\x27' := by
  obtain ⟨mark, hmark, htext⟩ := exists_mark_of_stringText d s
  rw [htext]
  by_cases hd : d = sqlServer
  · subst hd
    exact readString?_sqlServer_eq_some_iff (hmark.imp_right And.right)
  · obtain rfl : mark = "" := hmark.resolve_right fun hn => hd hn.1
    rw [String.empty_append]
    cases d with
    | sqlServer => exact absurd rfl hd
    | mySql => exact absurd rfl h
    | oracle | postgres => exact Text.takeQuoted?_eq_some_iff.trans (and_iff_right rfl)

/-- Each database reads a name as it was written, and each but MySQL a string, so long as what
follows does not begin with the closing quote; SQL Server does so for any string with the mark of
national strings or without it. -/
theorem readName?_and_readString?_eq_some_iff (d : Dialect) (s r : String) :
    (d.readName? (d.nameText s ++ r) = some (s, r) ↔ r.toList.head? ≠ some d.nameQuotes.2) ∧
    (d ≠ mySql →
      (d.readString? (d.stringText s ++ r) = some (s, r) ↔ r.toList.head? ≠ some '\x27')) ∧
    ∀ mark ∈ ["", "N"],
      (sqlServer.readString? (mark ++ Text.quoted '\x27' '\x27' s ++ r) = some (s, r) ↔
        r.toList.head? ≠ some '\x27') := by
  refine ⟨readName?_eq_some_iff.trans (and_iff_right rfl), readString?_stringText_eq_some_iff, ?_⟩
  intro mark hmark
  exact readString?_sqlServer_eq_some_iff (by simpa using hmark)

/-- Quotes at both ends of a name and of a string, with a quote of the other kind behind them. -/
theorem readName?_and_readString?_quotes :
    oracle.readName? (oracle.nameText "\x22id\x22\x22" ++ "\x27") =
      some ("\x22id\x22\x22", "\x27") ∧
    sqlServer.readString? (sqlServer.stringText "\x27\x27é\x27" ++ "]") =
      some ("\x27\x27é\x27", "]") :=
  ⟨(readName?_and_readString?_eq_some_iff oracle _ _).1.mpr (by decide),
    ((readName?_and_readString?_eq_some_iff sqlServer _ _).2.1 (by decide)).mpr (by decide)⟩

/-- MySQL reads a string as it was written exactly if all its backslashes stand in front of
wildcards, and no quote follows. -/
theorem readString?_mySql_eq_some_iff (s r : String) :
    mySql.readString? (mySql.stringText s ++ r) = some (s, r) ↔
      Text.BackslashesKept s.toList ∧ r.toList.head? ≠ some '\x27' := by
  have htext : mySql.stringText s = Text.quoted '\x27' '\x27' s := by simp [stringText]
  rw [htext, readString?]
  exact Text.takeEscaped?_quoted_append_eq_some_iff

/-- A backslash in front of a quote ends the string behind that quote, and what follows in the
string is read as SQL. -/
theorem readString?_mySql_breakout :
    mySql.readString? (mySql.stringText "\x5c' OR 1=1 -- " ++ "") = some ("'", " OR 1=1 -- '") ∧
    "".toList.head? ≠ some '\x27' ∧
    mySql.readString? (mySql.stringText "\x5c' OR 1=1 -- " ++ "") ≠
      some ("\x5c' OR 1=1 -- ", "") := by
  have hread : mySql.readString? (mySql.stringText "\x5c' OR 1=1 -- " ++ "") =
      some ("'", " OR 1=1 -- '") := by
    decide +kernel
  exact ⟨hread, by decide, by rw [hread]; decide⟩

end Dialect

end SqlTree
