/-
Documents with one statement on each line.

A statement is read up to the end of its line, whatever stands on the lines below.  So a
document whose lines are statements one by one (`ReadsAs`) is read as these statements in
their order, and this does not depend on how its lines end (`readStatements_text`).

A line with a header and a line that gives one key a value are such statements.  Of the
value they ask that its text is read as this value in front of the end of a line, which
holds of every string without escapes and of every scalar.  Put together, a header and
lines with distinct keys below it make one table with these keys in the order of the lines
(`read?_text`).
-/
import ChangeImpact.Toml.Reader
import Mathlib.Data.List.Forall2
import Mathlib.Data.List.Nodup

namespace ChangeImpact
namespace Toml

/-! ## Ends of lines -/

/-- The line ends where the first text begins, and the second one is what stands from the
next line on. -/
inductive LineEnd : List Char → List Char → Prop
  | last : LineEnd [] []
  | feed (r : List Char) : LineEnd ('\n' :: r) r
  | returned (r : List Char) : LineEnd ('\r' :: '\n' :: r) r

/-- A text that does not begin with a blank, a comment or the end of a line. -/
def Opens (s : List Char) : Prop :=
  ∃ c r, s = c :: r ∧ isSpace c = false ∧ c ≠ '#' ∧ c ≠ '\n' ∧ c ≠ '\r'

variable {s rest after : List Char}

theorem Opens.append (h : Opens s) (rest : List Char) : Opens (s ++ rest) := by
  obtain ⟨c, r, rfl, hc⟩ := h
  exact ⟨c, r ++ rest, rfl, hc⟩

theorem skipSpace_of_not_space {c : Char} (h : isSpace c = false) (r : List Char) :
    skipSpace (c :: r) = c :: r :=
  List.dropWhile_cons_of_neg (Bool.eq_false_iff.mp h)

theorem Opens.skipSpace_eq (h : Opens s) : skipSpace s = s := by
  obtain ⟨c, r, rfl, hc, -⟩ := h
  exact skipSpace_of_not_space hc r

theorem Opens.skipGap_eq (h : Opens s) : skipGap s = s := by
  have hspace := h.skipSpace_eq
  obtain ⟨c, r, rfl, -, hcomment, hfeed, hreturn⟩ := h
  have hskip : skipComment (c :: r) = c :: r := by
    unfold skipComment
    split
    · next he => exact absurd (List.cons.inj he).1 hcomment
    · rfl
  have hline : pastNewline? (c :: r) = none := by
    unfold pastNewline?
    split
    · next he => exact absurd (List.cons.inj he).1 hfeed
    · next he => exact absurd (List.cons.inj he).1 hreturn
    · rfl
  rw [skipGap]
  split
  · next t ht =>
    rw [hspace, hskip, hline] at ht
    cases ht
  · rw [hspace, hskip]

theorem LineEnd.endLine?_eq (h : LineEnd rest after) : endLine? rest = some after := by
  cases h <;> rfl

/-- A class of characters holds apart what is in it from what is not. -/
theorem ne_of_class {p : Char → Bool} {c d : Char} (hc : p c = true) (hd : p d = false) :
    c ≠ d := by
  rintro rfl
  rw [hc] at hd
  cases hd

/-! ## Keys -/

/-- A key that can be written without quotes. -/
def IsBare (key : String) : Prop :=
  key ≠ "" ∧ ∀ c ∈ key.toList, isKeyChar c = true

instance (key : String) : Decidable (IsBare key) :=
  decidable_of_iff (key ≠ "" ∧ key.toList.all isKeyChar = true)
    (and_congr_right fun _ => List.all_eq_true)

namespace IsBare

variable {key : String}

theorem exists_cons (h : IsBare key) :
    ∃ c r, key.toList = c :: r ∧ isKeyChar c = true := by
  cases hk : key.toList with
  | nil => exact absurd (String.toList_eq_nil_iff.mp hk) h.1
  | cons c r => exact ⟨c, r, rfl, h.2 c (by rw [hk]; exact List.mem_cons_self)⟩

theorem opens (h : IsBare key) : Opens key.toList := by
  obtain ⟨c, r, hk, hc⟩ := h.exists_cons
  refine ⟨c, r, hk, ?_, ne_of_class hc rfl, ne_of_class hc rfl, ne_of_class hc rfl⟩
  rw [isSpace, decide_eq_false (ne_of_class hc rfl), decide_eq_false (ne_of_class hc rfl)]
  rfl

/-- No other character begins a text that begins with a key. -/
theorem append_ne_cons (h : IsBare key) {d : Char} (hd : isKeyChar d = false)
    (rest r : List Char) : key.toList ++ rest ≠ d :: r := by
  obtain ⟨c, t, hk, hc⟩ := h.exists_cons
  rw [hk]
  exact fun he => ne_of_class hc hd (List.cons.inj he).1

theorem readKey_append (h : IsBare key) {d : Char} (hd : isKeyChar d = false) (r : List Char) :
    readKey (key.toList ++ d :: r) = some (key.toList, d :: r) := by
  have htake : (key.toList ++ d :: r).takeWhile isKeyChar = key.toList := by
    rw [List.takeWhile_append_of_pos h.2, List.takeWhile_cons_of_neg (by simp [hd]),
      List.append_nil]
  have hdrop : (key.toList ++ d :: r).dropWhile isKeyChar = d :: r := by
    rw [List.dropWhile_append_of_pos h.2, List.dropWhile_cons_of_neg (by simp [hd])]
  unfold readKey
  split
  · next he => exact absurd he (h.append_ne_cons rfl _ _)
  · next he => exact absurd he (h.append_ne_cons rfl _ _)
  · obtain ⟨c, t, hk, -⟩ := h.exists_cons
    rw [htake, hdrop, if_neg (by rw [hk]; exact Bool.false_ne_true)]

/-- A key is the whole path if no point follows. -/
theorem readPath_append (h : IsBare key) {d : Char} (hd : isKeyChar d = false) {r t : List Char}
    (hr : skipSpace (d :: r) = t) (hpoint : t.head? ≠ some '.') :
    readPath [] (key.toList ++ d :: r) = some ([key], t) := by
  have hkey : readKey (skipSpace (key.toList ++ d :: r)) = some (key.toList, d :: r) := by
    rw [(h.opens.append _).skipSpace_eq, h.readKey_append hd]
  rw [readPath]
  split
  · next hk =>
    rw [hkey] at hk
    cases hk
  · next k u hk =>
    obtain ⟨rfl, rfl⟩ := Prod.mk.inj (Option.some.inj (hkey.symm.trans hk))
    split
    · next v hv =>
      rw [hr] at hv
      rw [hv] at hpoint
      exact absurd rfl hpoint
    · rw [hr, String.ofList_toList]
      rfl

end IsBare

/-! ## Values -/

/-- The text is read as the value wherever a line ends behind it. -/
structure IsWritten (text : String) (v : Value) : Prop where
  opens : Opens text.toList
  read {rest after : List Char} (h : LineEnd rest after) :
    (valueReader maxDepth).run (text.toList ++ rest) = some (v, rest)

/-- Every character of the text stands for itself in a basic string. -/
def IsUnescaped (s : List Char) : Prop :=
  ∀ c ∈ s, c ≠ '"' ∧ c ≠ '\\' ∧ isPlain c = true

instance (s : List Char) : Decidable (IsUnescaped s) :=
  List.decidableBAll _ s

theorem readBasic_append (hs : IsUnescaped s) (acc rest : List Char) :
    readBasic acc (s ++ '"' :: rest) = some (acc.reverse ++ s, rest) := by
  induction s generalizing acc with
  | nil =>
    rw [List.nil_append, readBasic, if_pos rfl, List.append_nil]
  | cons c s ih =>
    obtain ⟨hquote, hslash, hplain⟩ := hs c List.mem_cons_self
    rw [List.cons_append, readBasic, if_neg hquote, if_neg hslash, if_pos hplain,
      ih fun d hd => hs d (List.mem_cons_of_mem c hd)]
    simp

/-- Two quotes make an empty string at the end of a line, where no third one follows. -/
theorem readString?_append (hs : IsUnescaped s) (h : LineEnd rest after) :
    readString? ('"' :: (s ++ '"' :: rest)) = some (s, rest) := by
  have hbasic := readBasic_append hs [] rest
  unfold readString?
  split
  · next he =>
    exfalso
    cases s with
    | nil => cases h <;> cases he
    | cons c s => exact (hs c List.mem_cons_self).1 (List.cons.inj (List.cons.inj he).2).1
  · next he => cases he
  · next he =>
    obtain rfl := (List.cons.inj he).2
    exact hbasic
  · next he => cases he
  · next hno _ => exact absurd rfl (hno _)

theorem isWritten_string {s : String} (hs : IsUnescaped s.toList) :
    IsWritten ("\"" ++ s ++ "\"") (.string s) where
  opens := ⟨'"', s.toList ++ ['"'], by simp, by decide⟩
  read := by
    intro rest after h
    have htext : ("\"" ++ s ++ "\"").toList ++ rest = '"' :: (s.toList ++ '"' :: rest) := by
      simp
    show readNested _ _ = _
    rw [htext]
    show (readString? ('"' :: (s.toList ++ '"' :: rest))).map _ = _
    rw [readString?_append hs h, Option.map_some, String.ofList_toList]

theorem readRun_append (hs : ∀ c ∈ s, isRunChar c = true) (h : LineEnd rest after) :
    readRun (s ++ rest) = (s, rest) := by
  have hrest : rest.takeWhile isRunChar = [] ∧ rest.dropWhile isRunChar = rest ∧
      rest.takeWhile isSpace = [] := by
    cases h <;> exact ⟨rfl, rfl, rfl⟩
  rw [readRun, List.takeWhile_append_of_pos hs, List.dropWhile_append_of_pos hs, hrest.1,
    hrest.2.1, hrest.2.2]
  simp

theorem exists_cons_of_startsRun (h : startsRun s = true) :
    ∃ c r, s = c :: r ∧ isRunChar c = true ∧ c ≠ '"' ∧ c ≠ '\'' := by
  cases s with
  | nil => cases h
  | cons c r =>
    simp only [startsRun, Bool.and_eq_true, decide_eq_true_eq] at h
    exact ⟨c, r, rfl, h.1.1, h.1.2, h.2⟩

theorem readNested_of_startsRun (h : startsRun s = true) (inner : Reader Value) :
    readNested inner s = readScalar s := by
  obtain ⟨c, r, rfl, hc, hdouble, hsingle⟩ := exists_cons_of_startsRun h
  have hflat : readFlat (c :: r) = readScalar (c :: r) := by
    unfold readFlat
    split
    · next he => exact absurd (List.cons.inj he).1 hdouble
    · next he => exact absurd (List.cons.inj he).1 hsingle
    · rfl
  unfold readNested
  split
  · next he => exact absurd (List.cons.inj he).1 (ne_of_class hc rfl)
  · next he => exact absurd (List.cons.inj he).1 (ne_of_class hc rfl)
  · exact hflat

theorem isWritten_scalar {text : String} {v : Value} (hstart : startsRun text.toList = true)
    (hrun : text.toList.all isRunChar = true) (hv : scalar? text.toList = some v) :
    IsWritten text v where
  opens := by
    obtain ⟨c, r, ht, hc, -⟩ := exists_cons_of_startsRun hstart
    refine ⟨c, r, ht, ?_, ne_of_class hc rfl, ne_of_class hc rfl, ne_of_class hc rfl⟩
    rw [isRunChar, Bool.and_eq_true] at hc
    simpa using hc.2
  read := by
    intro rest after h
    have hstarts : startsRun (text.toList ++ rest) = true := by
      obtain ⟨c, r, ht, -⟩ := exists_cons_of_startsRun hstart
      rw [ht] at hstart ⊢
      exact hstart
    show readNested _ _ = _
    rw [readNested_of_startsRun hstarts, readScalar, if_pos hstarts,
      readRun_append (List.all_eq_true.mp hrun) h, hv]
    rfl

theorem isWritten_boolean (b : Bool) :
    IsWritten (if b then "true" else "false") (.boolean b) := by
  cases b
  · exact isWritten_scalar (by decide) (by decide) rfl
  · exact isWritten_scalar (by decide) (by decide) rfl

/-! ## Statements -/

/-- The text is a line that is read as the statement. -/
structure ReadsAs (line : String) (st : Statement) : Prop where
  opens : Opens line.toList
  read {rest after : List Char} (h : LineEnd rest after) :
    readPlainStatement (line.toList ++ rest) = some (st, rest)

theorem readsAs_header {key : String} (h : IsBare key) :
    ReadsAs ("[" ++ key ++ "]") (.table [] key) where
  opens := ⟨'[', key.toList ++ [']'], by simp, by decide⟩
  read := by
    intro rest after _
    have hpath : readPath [] (key.toList ++ ']' :: rest) = some ([key], ']' :: rest) :=
      h.readPath_append (by decide) (skipSpace_of_not_space (by decide) rest) (by simp)
    have htext : ("[" ++ key ++ "]").toList ++ rest = '[' :: (key.toList ++ ']' :: rest) := by
      simp
    rw [htext]
    show readHeader (key.toList ++ ']' :: rest) = _
    unfold readHeader
    split
    · next he => exact absurd he (h.append_ne_cons rfl _ _)
    · rw [hpath]
      rfl

theorem readsAs_assign {key text : String} {v : Value} (hkey : IsBare key)
    (hv : IsWritten text v) :
    ReadsAs (key ++ " = " ++ text) (.assign ⟨[], key, v⟩) where
  opens := by
    rw [String.append_assoc, String.toList_append]
    exact hkey.opens.append _
  read := by
    intro rest after h
    have hpath : readPath [] (key.toList ++ ' ' :: '=' :: ' ' :: (text.toList ++ rest)) =
        some ([key], '=' :: ' ' :: (text.toList ++ rest)) :=
      hkey.readPath_append (by decide) rfl (by simp)
    have htext : (key ++ " = " ++ text).toList ++ rest =
        key.toList ++ ' ' :: '=' :: ' ' :: (text.toList ++ rest) := by
      simp
    have hgap : skipSpace (' ' :: (text.toList ++ rest)) = text.toList ++ rest :=
      (hv.opens.append rest).skipSpace_eq
    have hassign : readAssignment skipSpace (valueReader maxDepth)
        (key.toList ++ ' ' :: '=' :: ' ' :: (text.toList ++ rest)) =
          some (⟨[], key, v⟩, rest) := by
      rw [readAssignment, hpath]
      show ((valueReader maxDepth).run (skipSpace (' ' :: (text.toList ++ rest)))).bind _ = _
      rw [hgap, hv.read h]
      rfl
    rw [htext]
    unfold readPlainStatement
    split
    · next he => exact absurd he (hkey.append_ne_cons rfl _ _)
    · rw [hassign]
      rfl

theorem readStatements_nil (acc : List Statement) : readStatements acc [] = some acc.reverse := by
  have hgap : skipGap [] = [] := by
    rw [skipGap]
    rfl
  rw [readStatements]
  split
  · rfl
  · next hs =>
    rw [hgap] at hs
    cases hs

theorem ReadsAs.readStatement_append {line : String} {st : Statement} (h : ReadsAs line st)
    (hend : LineEnd rest after) :
    readStatement (line.toList ++ rest) = some (st, after) := by
  unfold readStatement
  rw [h.read hend]
  show (endLine? rest).bind _ = _
  rw [hend.endLine?_eq]
  rfl

theorem ReadsAs.readStatements_append {line : String} {st : Statement} (h : ReadsAs line st)
    (hend : LineEnd rest after) (acc : List Statement) :
    readStatements acc (line.toList ++ rest) = readStatements (st :: acc) after := by
  have hgap := (h.opens.append rest).skipGap_eq
  have hread := h.readStatement_append hend
  rw [readStatements]
  split
  · next hs =>
    obtain ⟨c, r, hc, -⟩ := h.opens.append rest
    rw [hgap, hc] at hs
    cases hs
  · next c r hs =>
    rw [hgap] at hs
    split
    · next hnone =>
      rw [← hs, hread] at hnone
      cases hnone
    · next hsome =>
      rw [← hs, hread] at hsome
      obtain ⟨rfl, rfl⟩ := Prod.mk.inj (Option.some.inj hsome)
      rfl

/-! ## Documents -/

/-- How the lines of a document end. -/
structure Layout where
  /-- Whether a carriage return stands before each line feed. -/
  returns : Bool
  /-- Whether the last line ends like the others. -/
  closed : Bool

namespace Layout

def newline (o : Layout) : String :=
  if o.returns then "\r\n" else "\n"

def ending (o : Layout) : String :=
  if o.closed then o.newline else ""

def text (o : Layout) : List String → String
  | [] => ""
  | [line] => line ++ o.ending
  | line :: next :: lines => line ++ o.newline ++ o.text (next :: lines)

theorem lineEnd_newline (o : Layout) (r : List Char) : LineEnd (o.newline.toList ++ r) r := by
  unfold newline
  split
  · exact .returned r
  · exact .feed r

theorem lineEnd_ending (o : Layout) : LineEnd o.ending.toList [] := by
  unfold ending
  split
  · simpa using o.lineEnd_newline []
  · exact .last

theorem exists_toList_text_cons (o : Layout) (line : String) (lines : List String) :
    ∃ rest, (o.text (line :: lines)).toList = line.toList ++ rest ∧
      LineEnd rest (o.text lines).toList := by
  cases lines with
  | nil => exact ⟨o.ending.toList, by rw [text, String.toList_append], o.lineEnd_ending⟩
  | cons next lines =>
    refine ⟨o.newline.toList ++ (o.text (next :: lines)).toList, ?_, o.lineEnd_newline _⟩
    rw [text, String.append_assoc, String.toList_append, String.toList_append]

end Layout

theorem readStatements_text (o : Layout) {lines : List String} {sts : List Statement}
    (h : List.Forall₂ ReadsAs lines sts) (acc : List Statement) :
    readStatements acc (o.text lines).toList = some (acc.reverse ++ sts) := by
  induction h generalizing acc with
  | nil => rw [Layout.text, String.toList_empty, readStatements_nil, List.append_nil]
  | @cons line st lines sts hline _ ih =>
    -- What stands behind this line is the text of the others, so the hypothesis takes over there.
    obtain ⟨rest, htext, hend⟩ := o.exists_toList_text_cons line lines
    rw [htext, hline.readStatements_append hend, ih]
    simp

/-! ## Tables -/

/-- A line that gives a key a value, and the value that its text stands for. -/
structure Line where
  key : String
  text : String
  value : Value

namespace Line

def render (l : Line) : String :=
  l.key ++ " = " ++ l.text

def entry (l : Line) : String × Value :=
  (l.key, l.value)

structure Fits (l : Line) : Prop where
  key : IsBare l.key
  text : IsWritten l.text l.value

end Line

theorem Entries.get?_eq_none_iff {entries : Entries} {key : String} :
    entries.get? key = none ↔ key ∉ entries.map Prod.fst := by
  rw [Entries.get?, List.lookup_eq_none_iff]
  constructor
  · intro h hmem
    obtain ⟨e, he, rfl⟩ := List.mem_map.mp hmem
    exact absurd (h e he) (by simp)
  · intro h e he
    exact bne_iff_ne.mpr fun hkey => h (hkey ▸ List.mem_map_of_mem he)

/-- In a table with distinct keys every entry is found under its key. -/
theorem Entries.get?_of_mem {entries : Entries} (h : (entries.map Prod.fst).Nodup)
    {key : String} {v : Value} (hmem : (key, v) ∈ entries) : entries.get? key = some v := by
  cases hget : entries.get? key with
  | none =>
    exact absurd (List.mem_map_of_mem hmem) (Entries.get?_eq_none_iff.mp hget)
  | some w =>
    obtain ⟨before, behind, rfl, -⟩ := List.lookup_eq_some_iff.mp hget
    have hw : (key, w) ∈ before ++ (key, w) :: behind := by simp
    have heq := List.inj_on_of_nodup_map h hmem hw rfl
    rw [(Prod.mk.inj heq).2]

/-- The draft of a document with one table, which is still open. -/
def Draft.ofTable (header : String) (entries : Entries) : Draft :=
  ⟨[header], [(header, .table .header entries)]⟩

namespace Draft

variable {header key : String} {entries : Entries} {v : Value}

theorem step?_table (header : String) :
    ({} : Draft).step? (.table [] header) = some (ofTable header []) := by
  rfl

theorem step?_assign (h : entries.get? key = none) :
    (ofTable header entries).step? (.assign ⟨[], key, v⟩) =
      some (ofTable header (entries ++ [(key, v)])) := by
  have hget : Entries.get? [(header, .table .header entries)] header =
      some (.table .header entries) := by
    simp [Entries.get?]
  have hnew : entries.assign? [] key v = some (entries ++ [(key, v)]) := by
    show entries.insertNew? key v = _
    rw [Entries.insertNew?, h]
  have henter : Way.header.enters .header = true := rfl
  simp only [step?, ofTable, Entries.assignAt?, Way.alter, hget, hnew, if_pos henter,
    Entries.replace, Option.map_some, List.map_cons, List.map_nil, if_true]

/-- The keys of a table stand in the order of their lines. -/
theorem foldlM_step?_assign (entries : Entries) (lines : List Line)
    (h : (entries.map Prod.fst ++ lines.map Line.key).Nodup) :
    (lines.map fun l => Statement.assign ⟨[], l.key, l.value⟩).foldlM step?
        (ofTable header entries) =
      some (ofTable header (entries ++ lines.map Line.entry)) := by
  induction lines generalizing entries with
  | nil => simp
  | cons l lines ih =>
    have hnew : entries.get? l.key = none := by
      rw [Entries.get?_eq_none_iff]
      intro hmem
      exact (List.nodup_append.mp h).2.2 _ hmem _ List.mem_cons_self rfl
    have hrest : ((entries ++ [l.entry]).map Prod.fst ++ lines.map Line.key).Nodup := by
      simpa [Line.entry] using h
    rw [List.map_cons, List.foldlM_cons, step?_assign hnew]
    show List.foldlM _ (ofTable header (entries ++ [l.entry])) _ = _
    rw [ih _ hrest, List.append_assoc]
    rfl

end Draft

/-- A header and lines with distinct keys below it make one table. -/
theorem read?_text (o : Layout) {header : String} (hheader : IsBare header)
    {lines : List Line} (hlines : ∀ l ∈ lines, l.Fits) (hkeys : (lines.map Line.key).Nodup) :
    read? (o.text (("[" ++ header ++ "]") :: lines.map Line.render)) =
      some [(header, .table .header (lines.map Line.entry))] := by
  have hstatements : List.Forall₂ ReadsAs
      (("[" ++ header ++ "]") :: lines.map Line.render)
      (.table [] header :: lines.map fun l => .assign ⟨[], l.key, l.value⟩) := by
    refine .cons (readsAs_header hheader) ?_
    rw [List.forall₂_map_left_iff, List.forall₂_map_right_iff, List.forall₂_same]
    exact fun l hl => readsAs_assign (hlines l hl).key (hlines l hl).text
  have hmark : (o.text (("[" ++ header ++ "]") :: lines.map Line.render)).toList.head? ≠
      some '\ufeff' := by
    obtain ⟨rest, htext, -⟩ :=
      o.exists_toList_text_cons ("[" ++ header ++ "]") (lines.map Line.render)
    rw [htext]
    simp
  unfold read?
  dsimp only
  rw [if_neg hmark, readStatements_text o hstatements]
  show build? _ = _
  rw [build?, List.reverse_nil, List.nil_append, List.foldlM_cons, Draft.step?_table]
  show ((List.foldlM Draft.step? (Draft.ofTable header []) _).map Draft.entries) = _
  rw [Draft.foldlM_step?_assign [] lines hkeys]
  rfl

end Toml
end ChangeImpact
