/-
Two listings of one registry.

The text shows the crates and the triggers in columns, the JSON value holds them as arrays of
objects.  A row of the text is cut at its spaces, whatever the columns do, and an object is
read by the names of its members; `listing_agrees` says that both ways give the same entries
in the same order.  Only the place of the second column depends on the length of a name, and
it is the place of its title while the name fits.
-/
import ChangeImpact.Listing
import ChangeImpact.Proofs.Text.Words

namespace ChangeImpact

namespace Json

/-- The member of an object that has this name. -/
def get? (name : String) : Json → Option Json
  | .object members => members.lookup name
  | _ => none

def text? : Json → Option String
  | .string s => some s
  | _ => none

/-- The texts that the objects of an array have under these names. -/
def table? (array : String) (names : List String) (j : Json) : Option (List (List String)) :=
  match j.get? array with
  | some (.array items) =>
    items.mapM fun item => names.mapM fun name => (item.get? name).bind text?
  | _ => none

/-- A table is read from the objects that are made of its entries. -/
theorem table?_of_get? {α : Type} (entry : α → Json) {array : String} {names : List String}
    {j : Json} {row : α → List String} {xs : List α}
    (harray : j.get? array = some (.array (xs.map entry)))
    (hentry : ∀ x, (names.mapM fun name => ((entry x).get? name).bind text?) = some (row x)) :
    j.table? array names = some (xs.map row) := by
  rw [table?, harray]
  show (xs.map entry).mapM _ = _
  rw [List.mapM_map]
  have hrows : ((fun item => names.mapM fun name => (get? name item).bind text?) ∘ entry) =
      fun x => pure (row x) := funext hentry
  rw [hrows, List.mapM_pure]
  rfl

end Json

namespace Token

theorem isWord_full {name : String} (h : Text.IsSolid name.toList) :
    Text.IsWord (full name).text.toList := by
  have hdash : Text.IsWord "-".toList := by decide
  rw [full, String.toList_append, String.toList_append]
  exact (hdash.append_left h).append_left hdash.isSolid

theorem isWord_testOnly {name : String} (h : Text.IsSolid name.toList) :
    Text.IsWord (testOnly name).text.toList := by
  have hdash : Text.IsWord "-".toList := by decide
  have hmark : Text.IsSolid "-test-only-".toList := by decide
  rw [testOnly, String.toList_append, String.toList_append]
  exact (hdash.append_left h).append_left hmark

end Token

namespace Listing

/-! ## The lines of a text listing -/

/-- The characters of a row of the table of crates. -/
def line (name job testOnly : String) : List Char :=
  List.replicate 2 ' ' ++ ((Text.column 20 name).toList ++
    ' ' :: ((Text.column 24 job).toList ++ ' ' :: testOnly.toList))

def crateLine (name : String) : List Char :=
  line name (Token.full name).text (Token.testOnly name).text

def triggerLine (t : Trigger) : List Char :=
  List.replicate 2 ' ' ++ ((Text.column 20 t.suffix).toList ++ ' ' :: t.job.text.toList)

def titleLine (root : String) : List Char :=
  "Registered crates (root: ".toList ++ (root.toList ++ "):".toList)

/-- The lines in front of the crates. -/
def headLines (root : String) : List (List Char) :=
  [titleLine root, [], line "CRATE" "JOB" "TEST-ONLY JOB", line "-----" "---" "-------------"]

/-- The lines between the crates and the triggers. -/
def middleLines : List (List Char) :=
  [[], "Triggers:".toList, []]

theorem toList_row (name job testOnly : String) :
    (row name job testOnly).toList = line name job testOnly ++ ['\n'] := by
  have hindent : "  ".toList = List.replicate 2 ' ' := by decide
  have hspace : " ".toList = [' '] := by decide
  have hfeed : "\n".toList = ['\n'] := by decide
  simp only [row, line, String.toList_append, hindent, hspace, hfeed, List.append_assoc,
    List.cons_append, List.nil_append]

theorem toList_crateRow (name : String) :
    (crateRow name).toList = crateLine name ++ ['\n'] :=
  toList_row name _ _

theorem toList_triggerRow (t : Trigger) :
    (triggerRow t).toList = triggerLine t ++ ['\n'] := by
  have hindent : "  ".toList = List.replicate 2 ' ' := by decide
  have hspace : " ".toList = [' '] := by decide
  have hfeed : "\n".toList = ['\n'] := by decide
  simp only [triggerRow, triggerLine, String.toList_append, hindent, hspace, hfeed,
    List.append_assoc, List.cons_append, List.nil_append]

/-- The lines of the text listing of a registry. -/
def linesOf (c : Config) : List (List Char) :=
  headLines c.registry.root ++ (c.registry.crates.map crateLine ++
    (middleLines ++ c.triggers.map triggerLine))

theorem toList_listingText (c : Config) :
    c.listingText.toList = Text.unlines (linesOf c) := by
  have hclose : "):\n\n".toList = "):".toList ++ ['\n', '\n'] := by decide
  have hmiddle : "\nTriggers:\n\n".toList = Text.unlines middleLines := by decide
  unfold Config.listingText
  simp only [String.toList_append, hclose, hmiddle, toList_row]
  rw [Text.toList_join_map toList_crateRow, Text.toList_join_map toList_triggerRow]
  unfold linesOf headLines titleLine
  simp only [Text.unlines_append, Text.unlines_cons, List.append_assoc, List.cons_append,
    List.nil_append]

/-- What a listing asks of its words: the root is on one line, and names, endings and jobs
are words. -/
structure IsPlain (c : Config) : Prop where
  root_on_line : '\n' ∉ c.registry.root.toList
  isSolid_name : ∀ n ∈ c.registry.crates, Text.IsSolid n.toList
  isWord_suffix : ∀ t ∈ c.triggers, Text.IsWord t.suffix.toList
  isWord_job : ∀ t ∈ c.triggers, Text.IsWord t.job.text.toList

variable {c : Config} {name : String} {t : Trigger}

theorem IsPlain.isWord_name (h : IsPlain c) {n : String} (hn : n ∈ c.registry.crates) :
    Text.IsWord n.toList where
  ne_nil := fun he => c.registry.ne_empty n hn (String.toList_eq_nil_iff.mp he)
  isSolid := h.isSolid_name n hn

/-- A column of a solid text is a line: spaces end one as well as any word. -/
theorem isLine_column {w : String} (h : Text.IsSolid w.toList) (n : Nat) :
    Text.IsLine (Text.column n w).toList := by
  have hspaces : ∀ c ∈ List.replicate (n - w.toList.length) ' ', c = ' ' :=
    fun c hc => List.eq_of_mem_replicate hc
  rw [Text.toList_column]
  refine h.isLine.append ⟨fun hm => ?_, fun hlast => ?_⟩
  · exact absurd (hspaces _ hm) (by decide)
  · exact absurd (hspaces _ (List.mem_of_getLast? hlast)) (by decide)

theorem isLine_columns {w : String} (h : Text.IsSolid w.toList) (n : Nat) {s : List Char}
    (hs : Text.IsLine s) : Text.IsLine ((Text.column n w).toList ++ ' ' :: s) :=
  (isLine_column h n).append (Text.IsLine.append (a := [' ']) (by decide) hs)

theorem isLine_crateLine (h : Text.IsSolid name.toList) : Text.IsLine (crateLine name) := by
  have htests := (Token.isWord_testOnly h).isSolid.isLine
  have hjobs := isLine_columns (Token.isWord_full h).isSolid 24 htests
  exact Text.IsLine.append (by decide) (isLine_columns h 20 hjobs)

theorem isLine_triggerLine (hsuffix : Text.IsWord t.suffix.toList)
    (hjob : Text.IsWord t.job.text.toList) : Text.IsLine (triggerLine t) :=
  Text.IsLine.append (by decide) (isLine_columns hsuffix.isSolid 20 hjob.isSolid.isLine)

/-- The root may end in a carriage return, since a bracket closes it. -/
theorem isLine_titleLine {root : String} (h : '\n' ∉ root.toList) :
    Text.IsLine (titleLine root) :=
  Text.IsLine.append (by decide) (.append_of_ne_nil h (by decide) (by decide))

theorem lines_listingText (h : IsPlain c) : Text.lines c.listingText.toList = linesOf c := by
  have hhead : ∀ l ∈ headLines c.registry.root, Text.IsLine l := by
    simp only [headLines, List.forall_mem_cons]
    exact ⟨isLine_titleLine h.root_on_line, by decide, by decide, by decide, nofun⟩
  have hcrates : ∀ l ∈ c.registry.crates.map crateLine, Text.IsLine l := by
    rw [List.forall_mem_map]
    exact fun n hn => isLine_crateLine (h.isSolid_name n hn)
  have hmiddle : ∀ l ∈ middleLines, Text.IsLine l := by decide
  have htriggers : ∀ l ∈ c.triggers.map triggerLine, Text.IsLine l := by
    rw [List.forall_mem_map]
    exact fun t ht => isLine_triggerLine (h.isWord_suffix t ht) (h.isWord_job t ht)
  rw [toList_listingText, Text.lines_unlines]
  unfold linesOf
  simp only [List.forall_mem_append]
  exact ⟨hhead, hcrates, hmiddle, htriggers⟩

/-! ## Reading the text -/

/-- The words of a row. -/
def cells (row : List Char) : List String :=
  (Text.words row).map String.ofList

/-- The lines below the head of the table of crates. -/
def tableLines (text : String) : List (List Char) :=
  (Text.lines text.toList).drop 4

/-- The rows of the crates, which end at an empty line. -/
def crateRows (text : String) : List (List Char) :=
  (tableLines text).takeWhile (· ≠ [])

/-- The rows of the triggers, below a title between two empty lines. -/
def triggerRows (text : String) : List (List Char) :=
  ((tableLines text).dropWhile (· ≠ [])).drop 3

theorem crateLine_ne_nil (name : String) : crateLine name ≠ [] :=
  List.cons_ne_nil _ _

theorem forall_crateLine_ne_nil (names : List String) :
    ∀ l ∈ names.map crateLine, decide (l ≠ []) = true := by
  rw [List.forall_mem_map]
  exact fun n _ => decide_eq_true (crateLine_ne_nil n)

theorem crateRows_listingText (h : IsPlain c) :
    crateRows c.listingText = c.registry.crates.map crateLine := by
  rw [crateRows, tableLines, lines_listingText h]
  show (c.registry.crates.map crateLine ++ (middleLines ++ _)).takeWhile _ = _
  rw [List.takeWhile_append_of_pos (forall_crateLine_ne_nil _)]
  exact List.append_nil _

theorem triggerRows_listingText (h : IsPlain c) :
    triggerRows c.listingText = c.triggers.map triggerLine := by
  rw [triggerRows, tableLines, lines_listingText h]
  show ((c.registry.crates.map crateLine ++ (middleLines ++ _)).dropWhile _).drop 3 = _
  rw [List.dropWhile_append_of_pos (forall_crateLine_ne_nil _)]
  rfl

theorem cells_crateLine (h : Text.IsWord name.toList) :
    cells (crateLine name) = [name, (Token.full name).text, (Token.testOnly name).text] := by
  have hfull := Token.isWord_full h.isSolid
  have htests := Token.isWord_testOnly h.isSolid
  rw [cells, crateLine, line, Text.words_spaces, Text.words_column h, Text.words_column hfull,
    htests.words_eq]
  simp only [List.map_cons, List.map_nil, String.ofList_toList]

theorem cells_triggerLine (hsuffix : Text.IsWord t.suffix.toList)
    (hjob : Text.IsWord t.job.text.toList) :
    cells (triggerLine t) = [t.suffix, t.job.text] := by
  rw [cells, triggerLine, Text.words_spaces, Text.words_column hsuffix, hjob.words_eq]
  simp only [List.map_cons, List.map_nil, String.ofList_toList]

/-- The job stands behind a column of 20 characters, or of more if the name has more. -/
theorem secondAt_crateLine (h : Text.IsWord name.toList) :
    Text.secondAt (crateLine name) = 2 + max 20 name.length + 1 := by
  have hfull := Token.isWord_full h.isSolid
  rw [crateLine, line, Text.secondAt_column h, String.length_toList]
  rw [Text.column_append_space, List.head?_append_of_ne_nil _ hfull.ne_nil]
  exact fun he => hfull.isSolid.space_not_mem (List.mem_of_mem_head? he)

end Listing

namespace Config

variable {c : Config}

theorem table?_crates (c : Config) :
    c.listing.table? "crates" ["name", "job", "test_only_job"] =
      some (c.registry.crates.map fun n => [n, (Token.full n).text, (Token.testOnly n).text]) :=
  Json.table?_of_get? (crateEntry c.registry) rfl fun _ => rfl

theorem table?_prefixes (c : Config) :
    c.listing.table? "crates" ["name", "prefix"] =
      some (c.registry.crates.map fun n => [n, c.registry.start n]) :=
  Json.table?_of_get? (crateEntry c.registry) rfl fun _ => rfl

theorem table?_triggers (c : Config) :
    c.listing.table? "triggers" ["suffix", "job"] =
      some (c.triggers.map fun t => [t.suffix, t.job.text]) :=
  Json.table?_of_get? triggerEntry rfl fun _ => rfl

theorem map_cells_crateRows (h : Listing.IsPlain c) :
    (Listing.crateRows c.listingText).map Listing.cells =
      c.registry.crates.map fun n => [n, (Token.full n).text, (Token.testOnly n).text] := by
  rw [Listing.crateRows_listingText h, List.map_map]
  refine List.map_congr_left fun n hn => ?_
  rw [Function.comp_apply, Listing.cells_crateLine (h.isWord_name hn)]

theorem map_cells_triggerRows (h : Listing.IsPlain c) :
    (Listing.triggerRows c.listingText).map Listing.cells =
      c.triggers.map fun t => [t.suffix, t.job.text] := by
  rw [Listing.triggerRows_listingText h, List.map_map]
  refine List.map_congr_left fun t ht => ?_
  rw [Function.comp_apply, Listing.cells_triggerLine (h.isWord_suffix t ht) (h.isWord_job t ht)]

theorem secondAt_of_mem_crateRows (h : Listing.IsPlain c) {row : List Char}
    (hrow : row ∈ Listing.crateRows c.listingText) {name : String}
    (hname : name ∈ (Listing.cells row).head?) (hshort : name.length ≤ 20) :
    Text.secondAt row = 23 := by
  rw [Listing.crateRows_listingText h] at hrow
  obtain ⟨n, hn, rfl⟩ := List.mem_map.mp hrow
  have hword := h.isWord_name hn
  rw [Listing.cells_crateLine hword] at hname
  obtain rfl := Option.some.inj hname
  rw [Listing.secondAt_crateLine hword]
  omega

/-- The text listing and the JSON listing agree.  The rows of the crates and of the triggers,
cut at their runs of spaces, are the entries of the two arrays in the same order; a name may be
wider than its column.  A prefix in the JSON listing is the root followed by the name.  As long
as a name has at most 20 characters, its job stands below the title of the jobs. -/
theorem listing_agrees (c : Config) (h : Listing.IsPlain c) :
    c.listing.table? "crates" ["name", "job", "test_only_job"] =
      some ((Listing.crateRows c.listingText).map Listing.cells) ∧
    (Listing.crateRows c.listingText).map Listing.cells =
      c.registry.crates.map (fun n => [n, "-" ++ n ++ "-", "-" ++ n ++ "-test-only-"]) ∧
    c.listing.table? "triggers" ["suffix", "job"] =
      some ((Listing.triggerRows c.listingText).map Listing.cells) ∧
    (Listing.triggerRows c.listingText).map Listing.cells =
      c.triggers.map (fun t => [t.suffix, t.job.text]) ∧
    c.listing.table? "crates" ["name", "prefix"] =
      some (c.registry.crates.map fun n => [n, c.registry.root ++ n]) ∧
    ∃ head, (Text.lines c.listingText.toList)[2]? = some head ∧
      Listing.cells head = ["CRATE", "JOB", "TEST-ONLY", "JOB"] ∧
      ∀ row ∈ Listing.crateRows c.listingText, ∀ name ∈ (Listing.cells row).head?,
        name.length ≤ 20 → Text.secondAt row = Text.secondAt head := by
  have hcrates := map_cells_crateRows h
  have htriggers := map_cells_triggerRows h
  refine ⟨?_, hcrates, ?_, htriggers, table?_prefixes c,
    Listing.line "CRATE" "JOB" "TEST-ONLY JOB", ?_, by decide, ?_⟩
  · rw [hcrates, table?_crates]
  · rw [htriggers, table?_triggers]
  · rw [Listing.lines_listingText h]
    rfl
  · intro row hrow name hname hshort
    have hhead : Text.secondAt (Listing.line "CRATE" "JOB" "TEST-ONLY JOB") = 23 := by decide
    rw [hhead, secondAt_of_mem_crateRows h hrow hname hshort]

/-- A name that fills its column, one that exceeds it and one that resembles the rule below the
titles; a root with spaces and an ending that is wider than its column. -/
theorem listing_agrees_wide :
    let c : Config :=
      ⟨⟨"a  b/", ["twenty-characters-éé", "more-than-twenty-characters", "-----"],
        by decide, by decide⟩, ⟨".r", ⟨"-r-"⟩⟩, ⟨".twenty-one-characters", ⟨"Triggers:"⟩⟩⟩
    Listing.IsPlain c ∧
    c.listing.table? "crates" ["name", "job", "test_only_job"] = some
      [["twenty-characters-éé", "-twenty-characters-éé-", "-twenty-characters-éé-test-only-"],
        ["more-than-twenty-characters", "-more-than-twenty-characters-",
          "-more-than-twenty-characters-test-only-"],
        ["-----", "-------", "-------test-only-"]] ∧
    (Listing.triggerRows c.listingText).map Listing.cells =
      [[".r", "-r-"], [".twenty-one-characters", "Triggers:"]] ∧
    ∃ head, (Text.lines c.listingText.toList)[2]? = some head ∧
      ∀ row ∈ Listing.crateRows c.listingText, ∀ name ∈ (Listing.cells row).head?,
        name.length ≤ 20 → Text.secondAt row = Text.secondAt head := by
  intro c
  have hwords : ∀ t ∈ c.triggers, Text.IsWord t.suffix.toList ∧ Text.IsWord t.job.text.toList := by
    decide
  have h : Listing.IsPlain c :=
    ⟨by decide, by decide, fun t ht => (hwords t ht).1, fun t ht => (hwords t ht).2⟩
  obtain ⟨hjson, hcrates, -, htriggers, -, head, hhead, -, hplace⟩ := listing_agrees c h
  refine ⟨h, ?_, htriggers, head, hhead, hplace⟩
  rw [hjson, hcrates]
  decide

end Config
end ChangeImpact
