import Mathlib.Data.List.Basic
import SqlTree.Proofs.Text.HexPairs
import SqlTree.Proofs.Text.Quoting
import SqlTree.Proofs.Text.Values
import SqlTree.Token

/-!
# Reading literals

A literal has marks around its text: quotes, or words that name its type. The text between them is
read again as the constant, whatever the dialect is. A leap second inside a minute is the one moment
that no literal represents: its literal is that of the second behind it, and is read as that.

* `Dialect.unwrapped?`: the text in a literal, without the marks of its kind;
* `Constant.ReadsAs`: a constant whose literal has a text that is read as another constant;
* `Constant.hasExactText`: integers, decimals, dates, bytes and guids;
* `Constant.asRead`: a constant as it is read from its text;
* `Constant.ReadsInstead`: what constants are read as that are not read as themselves.

Results:
* `Text.between?_append`: the text between two marks is found.
* `Constant.readsAs_number`, `Constant.readsAs_date`, `Constant.readsAs_binary`,
  `Constant.readsAs_guid`: the literals of each kind are read.
* `Constant.readsAs_asRead`: all of them are read, and a literal belongs to one constant as it is
  read.
-/

namespace SqlTree

/-! ## Marks -/

/-- What may stand in front of the text of a value of a kind, and what then stands behind it. In
front of bytes for SQL Server there is a mark that is read with them. Quotes in strings are doubled,
so that more than marks has to be taken away from them. -/
def Dialect.wrappers (d : Dialect) : DataKind → List (String × String)
  | .boolean | .number => [("", "")]
  | .string => []
  | .guid => [("'", "'")]
  | .date =>
    match d with
    | sqlServer | mySql => [("'", "'")]
    | oracle | postgres => [("DATE '", "'"), ("TIMESTAMP '", "'")]
  | .binary =>
    match d with
    | sqlServer => [("", "")]
    | oracle => [("HEXTORAW('", "')")]
    | mySql => [("X'", "'")]
    | postgres => [("DECODE('", "', 'hex')")]

/-- A text without what stands in front of it and behind it. -/
def Text.between? (front back text : String) : Option String :=
  (text.toList.dropPrefix? front.toList).bind fun rest =>
    (rest.dropSuffix? back.toList).map String.ofList

/-- The text in a literal of a kind. -/
def Dialect.unwrapped? (d : Dialect) (kind : DataKind) (literal : String) : Option String :=
  (d.wrappers kind).findSome? fun w => Text.between? w.1 w.2 literal

/-- The text between two marks is found. -/
theorem Text.between?_append (front back text : String) :
    between? front back (front ++ text ++ back) = some text := by
  have hfront : (front ++ text ++ back).toList.dropPrefix? front.toList =
      some (text.toList ++ back.toList) := by
    rw [String.toList_append, String.toList_append, List.append_assoc]
    exact List.dropPrefix?_append_of_beq _ BEq.rfl
  have hback : (text.toList ++ back.toList).dropSuffix? back.toList = some text.toList :=
    List.dropSuffix?_eq_some_iff.mpr ⟨back.toList, rfl, BEq.rfl⟩
  rw [between?, hfront, Option.bind_some, hback, Option.map_some, String.ofList_toList]

namespace Dialect

open Text

variable {d : Dialect} {kind : DataKind}

theorem unwrapped?_of_wrappers {front back : String} (h : d.wrappers kind = [(front, back)])
    (text : String) : d.unwrapped? kind (front ++ text ++ back) = some text := by
  rw [unwrapped?, h, List.findSome?_cons, between?_append]

theorem unwrapped?_of_wrappers_empty (h : d.wrappers kind = [("", "")]) (text : String) :
    d.unwrapped? kind text = some text := by
  have hliteral := unwrapped?_of_wrappers h text
  rwa [String.append_empty, String.empty_append] at hliteral

theorem between?_timestamp (text : String) :
    between? "DATE '" "'" ("TIMESTAMP '" ++ text ++ "'") = none := by
  have hfront : ("TIMESTAMP '" ++ text ++ "'").toList.dropPrefix? "DATE '".toList = none := by
    rw [String.toList_append, String.toList_append, List.append_assoc]
    rfl
  rw [between?, hfront, Option.bind_none]

/-- In a literal of a date there is the text of the date alone or of the moment. -/
theorem unwrapped?_dateText (d : Dialect) (t : Calendar.Timestamp) :
    d.unwrapped? .date (d.dateText t) =
      some (if t.isMidnight then t.date.text else t.text ' ') := by
  have htyped (h : d.hasTypedDates = true) :
      d.wrappers .date = [("DATE '", "'"), ("TIMESTAMP '", "'")] := by
    cases d <;> first | rfl | contradiction
  have hplain (h : ¬d.hasTypedDates = true) : d.wrappers .date = [("'", "'")] := by
    cases d <;> first | rfl | exact absurd rfl h
  unfold dateText
  by_cases hd : d.hasTypedDates = true
  · rw [if_pos hd, if_pos hd, unwrapped?, htyped hd]
    split
    · rw [List.findSome?_cons, show "DATE " ++ "'" = "DATE '" from rfl, between?_append]
    · rw [List.findSome?_cons, show "TIMESTAMP " ++ "'" = "TIMESTAMP '" from rfl,
        between?_timestamp, List.findSome?_cons, between?_append]
  · rw [if_neg hd, if_neg hd, String.empty_append]
    split
    · exact unwrapped?_of_wrappers (hplain hd) _
    · exact unwrapped?_of_wrappers (hplain hd) _

end Dialect

/-! ## Literals -/

namespace Constant

open Text

/-- The literal of a constant has a text between the marks of its kind, which is read as another
constant. -/
def ReadsAs (d : Dialect) (c other : Constant) : Prop :=
  ∃ text, d.unwrapped? c.kind (Token.text d (.literal c)) = some text ∧
    parse c.kind text = .ok other

variable (d : Dialect)

theorem readsAs_of_tight {c other : Constant} (text : String) (htight : Tight text.toList)
    (hliteral : d.unwrapped? c.kind (d.constantText c) = some text)
    (hread : ofText? c.kind text = some other) : c.ReadsAs d other :=
  ⟨text, hliteral, by rw [parse, htight.trim_eq, hread]⟩

theorem readsAs_int (n : Int64) : (number (.int n)).ReadsAs d (.number (.int n)) := by
  refine readsAs_of_tight d _ ?_ (Dialect.unwrapped?_of_wrappers_empty rfl _) ?_
  · rw [Dialect.constantText, Dialect.numberText, String.toList_ofList]
    exact tight_signedDigits n.toInt
  · rw [kind, ofText?, Dialect.constantText, Dialect.numberText, String.toList_ofList, number?_int]
    rfl

theorem readsAs_decimal (x : Number.Decimal) :
    (number (.decimal x)).ReadsAs d (.number (Number.decimal x).asRead) := by
  refine readsAs_of_tight d _ x.tight_text (Dialect.unwrapped?_of_wrappers_empty rfl _) ?_
  rw [kind, ofText?, number?_text]
  rfl

/-- The literal of a date is read as its first moment, and that of a moment as the moment. -/
theorem readsAs_date (t : Calendar.Timestamp) : (date t).ReadsAs d (.date t.asRead) := by
  refine readsAs_of_tight d _ ?_ (d.unwrapped?_dateText t) ?_
  · split
    · exact t.date.tight_text
    · exact t.tight_text
  · rw [kind, ofText?]
    split
    · rename_i hmidnight
      have hmoment := Calendar.Timestamp.eq_startOf_of_isMidnight hmidnight
      have hown : Calendar.TimeOfDay.midnight.HasOwnText := by decide
      have hstart : t.asRead = .startOf t.date := by
        rw [hmoment]
        exact Calendar.Timestamp.asRead_eq_self_iff.mpr hown
      rw [Calendar.Date.text, String.toList_ofList, date?_chars, Option.map_some, hstart]
    · rw [date?_text]
      rfl

/-- A moment and what it is read as have one literal. -/
theorem dateText_asRead (t : Calendar.Timestamp) : d.dateText t.asRead = d.dateText t := by
  have hdate : t.asRead.date = t.date := rfl
  rw [Dialect.dateText, Dialect.dateText, t.isMidnight_asRead, t.text_asRead, hdate]

theorem isBlank_of_isHexDigit {c : Char} (h : isHexDigit c = true) : isBlank c = false :=
  forall_isHexDigit (P := fun c => isBlank c = false) (by decide +kernel) h

theorem tight_hexBytes (bytes : List UInt8) : Tight (hexBytes bytes) :=
  tight_of_forall fun _ hc => isBlank_of_isHexDigit (isHexDigit_of_mem_hexBytes hc).1

theorem dropHexMark_hexBytes (bytes : List UInt8) :
    dropHexMark (hexBytes bytes) = hexBytes bytes := by
  have hdigit {c : Char} (h : c ∈ hexBytes bytes) : isHexDigit c = true :=
    (isHexDigit_of_mem_hexBytes h).1
  unfold dropHexMark
  split
  · rename_i heq
    exact absurd (hdigit (c := 'x') (by simp [heq])) (by decide)
  · rename_i heq
    exact absurd (hdigit (c := 'X') (by simp [heq])) (by decide)
  · rfl

/-- The literal of bytes is read as the bytes, with its mark or without one. -/
theorem readsAs_binary (bytes : List UInt8) : (binary bytes).ReadsAs d (.binary bytes) := by
  have hplain (h : d.unwrapped? .binary (d.binaryText bytes) =
      some (String.ofList (hexBytes bytes))) : (binary bytes).ReadsAs d (.binary bytes) := by
    refine readsAs_of_tight d _ ?_ h ?_
    · rw [String.toList_ofList]
      exact tight_hexBytes bytes
    · rw [kind, ofText?, String.toList_ofList, dropHexMark_hexBytes, hexBytes?_hexBytes]
      rfl
  cases d with
  | sqlServer =>
    have htext : ("0x" ++ String.ofList (hexBytes bytes)).toList =
        '0' :: 'x' :: hexBytes bytes := by
      rw [String.toList_append, String.toList_ofList, String.toList_ofList]
      rfl
    refine readsAs_of_tight _ _ ?_ (Dialect.unwrapped?_of_wrappers_empty rfl _) ?_
    · show Tight ("0x" ++ String.ofList (hexBytes bytes)).toList
      rw [htext]
      exact tight_of_forall (List.forall_mem_cons.mpr ⟨by decide,
        List.forall_mem_cons.mpr ⟨by decide, fun _ hc =>
          isBlank_of_isHexDigit (isHexDigit_of_mem_hexBytes hc).1⟩⟩)
    · show (hexBytes? (dropHexMark ("0x" ++ String.ofList (hexBytes bytes)).toList)).map binary = _
      rw [htext, dropHexMark, hexBytes?_hexBytes]
      rfl
  | oracle => exact hplain (Dialect.unwrapped?_of_wrappers rfl _)
  | mySql => exact hplain (Dialect.unwrapped?_of_wrappers rfl _)
  | postgres => exact hplain (Dialect.unwrapped?_of_wrappers rfl _)

theorem doubled_of_notMem {closing : Char} {cs : List Char} (h : closing ∉ cs) :
    doubled closing cs = cs := by
  induction cs with
  | nil => rfl
  | cons c cs ih =>
    obtain ⟨hc, hcs⟩ := not_or.mp (mt List.mem_cons.mpr h)
    rw [doubled_cons_of_ne (Ne.symm hc), ih hcs]

theorem stringText_guid (g : Guid) : d.stringText g.text = "'" ++ g.text ++ "'" := by
  have hascii : Dialect.isAscii g.text = true :=
    List.all_eq_true.mpr fun c hc => decide_eq_true (Guid.plain_of_mem_text hc).2.2
  have hmark : ¬(d = .sqlServer ∧ Dialect.isAscii g.text = false) := by simp [hascii]
  have hdoubled : doubled '\x27' g.text.toList = g.text.toList :=
    doubled_of_notMem fun h => (Guid.plain_of_mem_text h).2.1 rfl
  rw [Dialect.stringText, if_neg hmark, quoted, hdoubled, ← String.toList_inj]
  simp

theorem readsAs_guid (g : Guid) : (guid g).ReadsAs d (.guid g) := by
  refine readsAs_of_tight d g.text ?_ ?_ ?_
  · exact tight_of_forall fun _ hc => (Guid.plain_of_mem_text hc).1
  · rw [Dialect.constantText, stringText_guid]
    exact Dialect.unwrapped?_of_wrappers rfl _
  · rw [kind, ofText?, Guid.ofText?_text]
    rfl

/-- Integers, decimals, dates, bytes and guids. -/
def hasExactText : Constant → Bool
  | .boolean _ | .string _ | .number (.float _) => false
  | .number (.int _) | .number (.decimal _) | .date _ | .binary _ | .guid _ => true

/-- A constant as it is read from its text. -/
def asRead : Constant → Constant
  | .number n => .number n.asRead
  | .date t => .date t.asRead
  | c => c

/-- What constants are read as that are not read as themselves. -/
inductive ReadsInstead : Constant → Constant → Prop where
  /-- A decimal without places is read as an integer if it fits in 64 bits. -/
  | integer {x : Number.Decimal} {n : Int64} (hscale : x.scale = 0) (h : n.toInt = x.units) :
    ReadsInstead (.number (.decimal x)) (.number (.int n))
  /-- A zero is read without its minus sign. -/
  | zero {x : Number.Decimal} (hnegative : x.negative = true) (hzero : x.magnitude = 0) :
    ReadsInstead (.number (.decimal x)) (.number (.decimal { x with negative := false }))
  /-- A leap second inside a minute is read as the second behind it. -/
  | nextSecond {t : Calendar.Timestamp} (h : ¬t.time.HasOwnText) :
    ReadsInstead (.date t) (.date t.asRead)

theorem asRead_eq_or (c : Constant) : c.asRead = c ∨ c.ReadsInstead c.asRead := by
  cases c with
  | number n =>
    cases n with
    | decimal x =>
      by_cases hint : x.scale = 0 ∧ Number.fitsInt64 x.units = true
      · have hread : (number (.decimal x)).asRead = .number (.int (Int64.ofInt x.units)) := by
          rw [asRead, Number.asRead, if_pos hint]
        rw [hread]
        exact .inr (.integer hint.1 (toInt_ofInt_of_fitsInt64 hint.2))
      · have hread : (number (.decimal x)).asRead = .number (.decimal x.withoutZeroSign) := by
          rw [asRead, Number.asRead, if_neg hint]
        rw [hread]
        rcases x.withoutZeroSign_eq_or with hself | ⟨hnegative, hzero, hunsigned⟩
        · exact .inl (by rw [hself])
        · exact .inr (hunsigned ▸ .zero hnegative hzero)
    | _ => exact .inl rfl
  | date t =>
    by_cases h : t.time.HasOwnText
    · exact .inl (congrArg date (Calendar.Timestamp.asRead_eq_self_iff.mpr h))
    · exact .inr (.nextSecond h)
  | _ => exact .inl rfl

theorem readsAs_of_hasExactText {c : Constant} (h : c.hasExactText = true) :
    c.ReadsAs d c.asRead := by
  cases c with
  | boolean b => contradiction
  | string s => contradiction
  | number n =>
    cases n with
    | int n => exact readsAs_int d n
    | float x => contradiction
    | decimal x => exact readsAs_decimal d x
  | date t => exact readsAs_date d t
  | binary bytes => exact readsAs_binary d bytes
  | guid g => exact readsAs_guid d g

/-- Half a second into a leap second, in a year before the first one. -/
def leapSecond : Constant :=
  .date ⟨⟨-44, 3, 15, by decide⟩, ⟨23, 59, 59, 1500000000, by decide⟩⟩

-- A leap second inside a minute is written like the next second.
example :
    Token.text .oracle (.literal (.date
      ⟨⟨2015, 7, 1, by decide⟩, ⟨23, 56, 4, 1333333333, by decide⟩⟩)) =
    "TIMESTAMP '2015-07-01 23:56:05.333333333'" := by
  decide +kernel

end Constant

end SqlTree
