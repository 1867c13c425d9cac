/-
Reading the text of a drift.

A text of a drift has up to three sections, each with a heading and its rows below.  A row
opens with a mark that no heading opens with, so the rows of a section end where the next one
begins, and a name that looks like a heading is still a row.  `sections` groups the lines this
way and `ofText` takes the names from the sections; `ofText_text` says that it finds the drift
again if no name holds white space.  A clean drift shows in the first line, and the check ends
with success exactly on these texts.
-/
import ChangeImpact.Command.Run
import ChangeImpact.Proofs.Drift.Discovery
import ChangeImpact.Proofs.Text.Pieces
import ChangeImpact.Proofs.Text.Words

namespace ChangeImpact
namespace Drift

/-- How a row begins. -/
def rowMark : List Char := "  - ".toList

/-- What stands between the two names of an overlap. -/
def link : List Char := " also matches ".toList

/-- The lines of a text that are no rows. -/
inductive Heading where
  /-- The first line of the text of a clean drift. -/
  | clean
  | missing
  | unregistered
  | overlaps
deriving DecidableEq

namespace Heading

def text : Heading → String
  | .clean => "Registry matches the crates on disk."
  | .missing => "Registered but not found on disk:"
  | .unregistered => "Found on disk but not registered:"
  | .overlaps => "Prefix overlaps (warning):"

def line (h : Heading) : List Char :=
  h.text.toList

theorem line_injective {h k : Heading} (heq : h.line = k.line) : h = k := by
  have htext : h.text = k.text := String.toList_inj.mp heq
  revert htext
  cases h <;> cases k <;> decide

theorem isLine_line (h : Heading) : Text.IsLine h.line := by
  cases h <;> decide

/-- A heading is not read as a row. -/
theorem dropWord?_line (h : Heading) : Text.dropWord? rowMark h.line = none := by
  cases h <;> decide

end Heading

/-! ## Sections -/

/-- A heading and the rows below it. -/
structure Section where
  title : List Char
  rows : List (List Char)
deriving DecidableEq

/-- Groups lines into sections.  The rows in front of the first heading come first. -/
def sections : List (List Char) → List (List Char) × List Section
  | [] => ([], [])
  | l :: ls =>
    match Text.dropWord? rowMark l with
    | some row => (row :: (sections ls).1, (sections ls).2)
    | none => ([], ⟨l, (sections ls).1⟩ :: (sections ls).2)

variable {h : Heading} {rows : List (List Char)} {ss : List Section}

theorem sections_rows_append (rows ls : List (List Char)) :
    sections (rows.map (rowMark ++ ·) ++ ls) = (rows ++ (sections ls).1, (sections ls).2) := by
  induction rows with
  | nil => rfl
  | cons row rows ih =>
    rw [List.map_cons, List.cons_append, sections, Text.dropWord?_append, ih]
    rfl

theorem sections_cons_line (h : Heading) (ls : List (List Char)) :
    sections (h.line :: ls) = ([], ⟨h.line, (sections ls).1⟩ :: (sections ls).2) := by
  rw [sections, h.dropWord?_line]

/-- The rows of the first section with this heading. -/
def rowsUnder (h : Heading) (ss : List Section) : List (List Char) :=
  ((ss.find? fun s => s.title = h.line).map Section.rows).getD []

theorem rowsUnder_cons (k : Heading) (rows : List (List Char)) (ss : List Section) :
    rowsUnder h (⟨k.line, rows⟩ :: ss) = if k = h then rows else rowsUnder h ss := by
  unfold rowsUnder
  rw [List.find?_cons]
  by_cases hk : k = h
  · rw [if_pos hk, decide_eq_true (congrArg Heading.line hk)]
    rfl
  · rw [if_neg hk, decide_eq_false fun he => hk (Heading.line_injective he)]

/-! ## Parts

A part is a heading with the rows that belong below it.  It makes a section only if it has
rows. -/

/-- A heading and what is to stand below it. -/
abbrev Part := Heading × List (List Char)

namespace Part

def lines (p : Part) : List (List Char) :=
  if p.2 = [] then [] else p.1.line :: p.2.map (rowMark ++ ·)

def section? (p : Part) : List Section :=
  if p.2 = [] then [] else [⟨p.1.line, p.2⟩]

theorem isLine_lines {p : Part} (hrows : ∀ row ∈ p.2, Text.IsLine row) :
    ∀ l ∈ p.lines, Text.IsLine l := by
  unfold lines
  by_cases hp : p.2 = []
  · rw [if_pos hp]
    exact nofun
  · rw [if_neg hp, List.forall_mem_cons, List.forall_mem_map]
    exact ⟨p.1.isLine_line, fun row hrow => Text.IsLine.append (by decide) (hrows row hrow)⟩

/-- Every part with rows is found as a section, and its rows end where the next part begins. -/
theorem sections_flatMap_lines (ps : List Part) :
    sections (ps.flatMap lines) = ([], ps.flatMap section?) := by
  induction ps with
  | nil => rfl
  | cons p ps ih =>
    rw [List.flatMap_cons, List.flatMap_cons, lines, section?]
    by_cases hp : p.2 = []
    · rw [if_pos hp, if_pos hp, List.nil_append, List.nil_append, ih]
    · rw [if_neg hp, if_neg hp, List.cons_append, sections_cons_line, sections_rows_append, ih,
        List.append_nil, List.singleton_append]

theorem rowsUnder_section?_append (p : Part) :
    rowsUnder h (p.section? ++ ss) =
      if p.1 = h ∧ p.2 ≠ [] then p.2 else rowsUnder h ss := by
  unfold section?
  by_cases hp : p.2 = []
  · rw [if_pos hp, List.nil_append, if_neg fun hboth => hboth.2 hp]
  · rw [if_neg hp, List.singleton_append, rowsUnder_cons]
    exact if_congr (iff_self_and.mpr fun _ => hp) rfl rfl

theorem rowsUnder_eq_nil {ps : List Part} (hps : h ∉ ps.map Prod.fst) :
    rowsUnder h (ps.flatMap section?) = [] := by
  induction ps with
  | nil => rfl
  | cons p ps ih =>
    rw [List.map_cons, List.mem_cons, not_or] at hps
    rw [List.flatMap_cons, rowsUnder_section?_append, if_neg fun hboth => hps.1 hboth.1.symm,
      ih hps.2]

/-- Among parts with different headings each is found by its own, with or without rows. -/
theorem rowsUnder_of_mem {ps : List Part} (hnodup : (ps.map Prod.fst).Nodup)
    (hmem : (h, rows) ∈ ps) : rowsUnder h (ps.flatMap section?) = rows := by
  induction ps with
  | nil => exact absurd hmem List.not_mem_nil
  | cons p ps ih =>
    rw [List.map_cons, List.nodup_cons] at hnodup
    rw [List.flatMap_cons, rowsUnder_section?_append]
    rcases List.mem_cons.mp hmem with hp | hps
    · subst hp
      by_cases hrows : rows = []
      · rw [if_neg fun hboth => hboth.2 hrows, rowsUnder_eq_nil hnodup.1, hrows]
      · rw [if_pos ⟨rfl, hrows⟩]
    · have hne : p.1 ≠ h := fun he => hnodup.1 (he ▸ List.mem_map_of_mem hps)
      rw [if_neg fun hboth => hne hboth.1, ih hnodup.2 hps]

end Part

/-! ## The text of a drift -/

/-- The two names of an overlap in a row. -/
def overlapOfRow? (row : List Char) : Option Registry.Overlap :=
  (Text.splitFirst? link row).map fun p => ⟨String.ofList p.1, String.ofList p.2⟩

/-- The drift that a text tells of. -/
def ofText (text : String) : Drift :=
  let ss := (sections (Text.lines text.toList)).2
  { missing := (rowsUnder .missing ss).map String.ofList
    unregistered := (rowsUnder .unregistered ss).map String.ofList
    overlaps := (rowsUnder .overlaps ss).filterMap overlapOfRow? }

/-- No name holds white space. -/
structure IsSolid (d : Drift) : Prop where
  missing : ∀ n ∈ d.missing, Text.IsSolid n.toList
  unregistered : ∀ n ∈ d.unregistered, Text.IsSolid n.toList
  shorter : ∀ o ∈ d.overlaps, Text.IsSolid o.shorter.toList
  longer : ∀ o ∈ d.overlaps, Text.IsSolid o.longer.toList

def overlapRow (o : Registry.Overlap) : List Char :=
  o.shorter.toList ++ link ++ o.longer.toList

def parts (d : Drift) : List Part :=
  [(.missing, d.missing.map String.toList),
    (.unregistered, d.unregistered.map String.toList),
    (.overlaps, d.overlaps.map overlapRow)]

theorem missing_mem_parts (d : Drift) :
    (.missing, d.missing.map String.toList) ∈ d.parts :=
  List.mem_cons_self

theorem unregistered_mem_parts (d : Drift) :
    (.unregistered, d.unregistered.map String.toList) ∈ d.parts :=
  List.mem_cons_of_mem _ List.mem_cons_self

theorem overlaps_mem_parts (d : Drift) : (.overlaps, d.overlaps.map overlapRow) ∈ d.parts :=
  List.mem_cons_of_mem _ (List.mem_cons_of_mem _ List.mem_cons_self)

theorem map_fst_parts (d : Drift) :
    d.parts.map Prod.fst = [.missing, .unregistered, .overlaps] := rfl

theorem fst_ne_clean_of_mem_parts {d : Drift} {p : Part} (hp : p ∈ d.parts) :
    p.1 ≠ .clean := by
  have hheading := List.mem_map_of_mem (f := Prod.fst) hp
  rw [map_fst_parts] at hheading
  intro he
  rw [he] at hheading
  exact absurd hheading (by decide)

/-- The line in front of the parts, which has no rows below it. -/
def firstLines (d : Drift) : List (List Char) :=
  if d.isClean = true then [Heading.clean.line] else []

variable {d : Drift}

theorem toList_paragraph (h : Heading) (rows : List String) :
    (paragraph h.text rows).toList =
      Text.unlines (Part.lines (h, rows.map String.toList)) := by
  have hrow : ∀ r : String, ("  - " ++ r ++ "\n").toList = (rowMark ++ r.toList) ++ ['\n'] := by
    intro r
    rw [String.toList_append, String.toList_append]
    rfl
  unfold paragraph Part.lines
  by_cases hrows : rows = []
  · rw [if_pos (List.isEmpty_iff.mpr hrows), if_pos (List.map_eq_nil_iff.mpr hrows)]
    rfl
  · rw [if_neg fun he => hrows (List.isEmpty_iff.mp he),
      if_neg fun he => hrows (List.map_eq_nil_iff.mp he), Text.unlines_cons, List.map_map,
      String.toList_append, String.toList_append, Text.toList_join_map hrow, List.append_assoc]
    rfl

theorem toList_text (d : Drift) :
    d.text.toList = Text.unlines (d.firstLines ++ d.parts.flatMap Part.lines) := by
  have hoverlaps : (d.overlaps.map fun o => o.shorter ++ " also matches " ++ o.longer).map
      String.toList = d.overlaps.map overlapRow := by
    rw [List.map_map]
    refine List.map_congr_left fun o _ => ?_
    show (o.shorter ++ " also matches " ++ o.longer).toList = _
    rw [String.toList_append, String.toList_append]
    rfl
  have hfirst : (if d.isClean = true then "Registry matches the crates on disk.\n"
      else "").toList = Text.unlines d.firstLines := by
    unfold firstLines
    by_cases hclean : d.isClean = true
    · rw [if_pos hclean, if_pos hclean]
      decide
    · rw [if_neg hclean, if_neg hclean]
      rfl
  have hmissing := toList_paragraph .missing d.missing
  have hunregistered := toList_paragraph .unregistered d.unregistered
  have hlast := toList_paragraph .overlaps
    (d.overlaps.map fun o => o.shorter ++ " also matches " ++ o.longer)
  rw [hoverlaps] at hlast
  unfold Heading.text at hmissing hunregistered hlast
  rw [text, String.toList_append, String.toList_append, String.toList_append, hfirst, hmissing,
    hunregistered, hlast, parts]
  simp only [Text.unlines_append, List.flatMap_cons, List.flatMap_nil, List.append_nil,
    List.append_assoc]

theorem isLine_overlapRow {o : Registry.Overlap} (hshorter : Text.IsSolid o.shorter.toList)
    (hlonger : Text.IsSolid o.longer.toList) : Text.IsLine (overlapRow o) :=
  (hshorter.isLine.append (by decide)).append hlonger.isLine

theorem lines_text (h : d.IsSolid) :
    Text.lines d.text.toList = d.firstLines ++ d.parts.flatMap Part.lines := by
  have hrows : ∀ p ∈ d.parts, ∀ row ∈ p.2, Text.IsLine row := by
    simp only [parts, List.forall_mem_cons, List.forall_mem_map]
    exact ⟨fun n hn => (h.missing n hn).isLine, fun n hn => (h.unregistered n hn).isLine,
      fun o ho => isLine_overlapRow (h.shorter o ho) (h.longer o ho), nofun⟩
  rw [toList_text, Text.lines_unlines]
  rw [List.forall_mem_append]
  constructor
  · unfold firstLines
    split
    · exact fun l hl => List.mem_singleton.mp hl ▸ Heading.clean.isLine_line
    · exact nofun
  · intro l hl
    obtain ⟨p, hp, hl⟩ := List.mem_flatMap.mp hl
    exact Part.isLine_lines (hrows p hp) l hl

/-- The line of a clean drift is in the way of no other heading. -/
theorem rowsUnder_sections_append (hne : h ≠ .clean) (d : Drift) (ls : List (List Char)) :
    rowsUnder h (sections (d.firstLines ++ ls)).2 = rowsUnder h (sections ls).2 := by
  unfold firstLines
  split
  · rw [List.singleton_append, sections_cons_line, rowsUnder_cons, if_neg hne.symm]
  · rw [List.nil_append]

theorem rowsUnder_lines (h : d.IsSolid) {p : Part} (hp : p ∈ d.parts) :
    rowsUnder p.1 (sections (Text.lines d.text.toList)).2 = p.2 := by
  have hnodup : (d.parts.map Prod.fst).Nodup := by
    rw [map_fst_parts]
    decide
  rw [lines_text h, rowsUnder_sections_append (fst_ne_clean_of_mem_parts hp),
    Part.sections_flatMap_lines]
  exact Part.rowsUnder_of_mem hnodup hp

theorem overlapOfRow?_overlapRow {o : Registry.Overlap} (h : Text.IsSolid o.shorter.toList) :
    overlapOfRow? (overlapRow o) = some o := by
  have hcut : Text.splitFirst? link (overlapRow o) = some (o.shorter.toList, o.longer.toList) :=
    Text.splitFirst?_append h.space_not_mem _
  rw [overlapOfRow?, hcut, Option.map_some, String.ofList_toList, String.ofList_toList]

theorem filterMap_overlapOfRow? {os : List Registry.Overlap}
    (h : ∀ o ∈ os, Text.IsSolid o.shorter.toList) :
    (os.map overlapRow).filterMap overlapOfRow? = os := by
  induction os with
  | nil => rfl
  | cons o os ih =>
    have ho := h o List.mem_cons_self
    have hos := ih fun o' ho' => h o' (List.mem_cons_of_mem _ ho')
    rw [List.map_cons, List.filterMap_cons_some (overlapOfRow?_overlapRow ho), hos]

theorem map_ofList_toList (ns : List String) : (ns.map String.toList).map String.ofList = ns := by
  rw [List.map_map]
  exact (List.map_congr_left fun n _ => String.ofList_toList).trans (List.map_id ns)

/-- A drift without white space in its names is read back from its text. -/
theorem ofText_text (h : d.IsSolid) : ofText d.text = d := by
  have hmissing := rowsUnder_lines h d.missing_mem_parts
  have hunregistered := rowsUnder_lines h d.unregistered_mem_parts
  have hoverlaps := rowsUnder_lines h d.overlaps_mem_parts
  unfold ofText
  dsimp only at hmissing hunregistered hoverlaps ⊢
  rw [hmissing, hunregistered, hoverlaps, map_ofList_toList, map_ofList_toList,
    filterMap_overlapOfRow? h.shorter]

/-! ## The first line -/

/-- The first line of the text says that the registry matches. -/
def OpensClean (text : String) : Prop :=
  (Text.lines text.toList).head? = some Heading.clean.line

/-- A text of parts opens with the heading of a part that has rows. -/
theorem exists_head?_lines {ps : List Part} {p : Part} (hp : p ∈ ps) (hrows : p.2 ≠ []) :
    ∃ q ∈ ps, (Text.lines (Text.unlines (ps.flatMap Part.lines))).head? = some q.1.line := by
  induction ps with
  | nil => exact absurd hp List.not_mem_nil
  | cons q ps ih =>
    rw [List.flatMap_cons, Part.lines]
    by_cases hq : q.2 = []
    · have hps : p ∈ ps := (List.mem_cons.mp hp).resolve_left fun he => hrows (he ▸ hq)
      obtain ⟨q', hq', hhead⟩ := ih hps
      rw [if_pos hq, List.nil_append]
      exact ⟨q', List.mem_cons_of_mem _ hq', hhead⟩
    · rw [if_neg hq, List.cons_append]
      exact ⟨q, List.mem_cons_self, congrArg List.head? (Text.lines_unlines_cons q.1.isLine_line _)⟩

theorem isClean_iff : d.isClean = true ↔ d.missing = [] ∧ d.unregistered = [] := by
  rw [isClean, Bool.and_eq_true, List.isEmpty_iff, List.isEmpty_iff]

theorem opensClean_text_iff (d : Drift) : OpensClean d.text ↔ d.isClean = true := by
  unfold OpensClean
  rw [toList_text, firstLines]
  by_cases hclean : d.isClean = true
  · rw [if_pos hclean, List.singleton_append]
    exact iff_of_true (congrArg List.head? (Text.lines_unlines_cons Heading.clean.isLine_line _))
      hclean
  · have hrows : ∃ p ∈ d.parts, p.2 ≠ [] := by
      by_cases hmissing : d.missing = []
      · have hunregistered : d.unregistered ≠ [] :=
          fun he => hclean (isClean_iff.mpr ⟨hmissing, he⟩)
        exact ⟨_, d.unregistered_mem_parts, fun he => hunregistered (List.map_eq_nil_iff.mp he)⟩
      · exact ⟨_, d.missing_mem_parts, fun he => hmissing (List.map_eq_nil_iff.mp he)⟩
    obtain ⟨p, hp, hne⟩ := hrows
    obtain ⟨q, hq, hhead⟩ := exists_head?_lines hp hne
    rw [if_neg hclean, List.nil_append, hhead]
    refine iff_of_false (fun he => ?_) hclean
    exact fst_ne_clean_of_mem_parts hq (Heading.line_injective (Option.some.inj he))

end Drift

namespace Command

/-- Once the crates are listed, the drift is printed, and only then fails the command. -/
theorem Checking.answer_of_listed {o : Checking} {listing : Option (List Entry)} {d : Drift}
    (h : Catalog.registry.drift o.shelf listing = .ok d) :
    o.answer listing = ⟨[.print d.text], if d.isClean = true then .ok ()
      else .error (.drift d.missing.length d.unregistered.length)⟩ := by
  have hbind : o.answer listing = (do
      .print d.text
      if d.isClean then return
      .ofExcept (.error (.drift d.missing.length d.unregistered.length))) := by
    rw [Checking.answer, h]
    rfl
  rw [hbind]
  by_cases hclean : d.isClean = true
  · simp only [if_pos hclean]
    rfl
  · simp only [if_neg hclean]
    rfl

/-- If the crates can be listed, the check prints the drift, fails on any and leaves all files
as they are. -/
theorem run_of_read_check {arguments : List String} {o : Checking}
    (h : Invocation.read arguments = .ok (.checkRegistry o)) {t : Tree} {d : Drift}
    (hd : t.drift o.rootPath Catalog.registry = .ok d) (outputFile : Option String)
    (stdin : ByteArray) :
    run t outputFile arguments stdin =
      (⟨d.text, if d.isClean = true then .success
        else .failed (.drift d.missing.length d.unregistered.length)⟩, t) := by
  have hlisted : Catalog.registry.drift o.shelf (t.list? o.shelf.directory) = .ok d := hd
  rw [run, h]
  show (o.answer (t.list? o.shelf.directory)).carryOut t = _
  rw [Checking.answer_of_listed hlisted, Transcript.carryOut]
  simp only [performAll_print, String.empty_append]
  by_cases hclean : d.isClean = true
  · simp only [if_pos hclean]
    rfl
  · simp only [if_neg hclean]
    rfl

end Command

namespace Drift

open Command (Invocation run)

/-- The text of a drift settles the drift if no name in it holds white space, also where a
name is empty or looks like a heading.  Its first line says that the registry matches exactly
if the drift is clean.  The check, once it can list the crates, prints this text, changes no
file and succeeds exactly if the drift is clean; so it exits with 0 exactly if it prints this
line first. -/
theorem text_lossless (d : Drift) :
    (d.IsSolid → ∀ d' : Drift, d'.IsSolid → d'.text = d.text →
      d'.missing = d.missing ∧ d'.unregistered = d.unregistered ∧ d'.overlaps = d.overlaps) ∧
    (OpensClean d.text ↔ d.isClean = true) ∧
    ∀ t outputFile arguments stdin o, Invocation.read arguments = .ok (.checkRegistry o) →
      t.drift o.rootPath Catalog.registry = .ok d →
      run t outputFile arguments stdin =
        (⟨d.text, if d.isClean = true then .success
          else .failed (.drift d.missing.length d.unregistered.length)⟩, t) ∧
      ((run t outputFile arguments stdin).1.exit.code = 0 ↔
        OpensClean (run t outputFile arguments stdin).1.printed) := by
  refine ⟨fun h d' h' htext => ?_, opensClean_text_iff d,
    fun t outputFile arguments stdin o hread hd => ?_⟩
  · have hsame : d' = d := by rw [← ofText_text h', htext, ofText_text h]
    rw [hsame]
    exact ⟨rfl, rfl, rfl⟩
  · have hrun := Command.run_of_read_check hread hd outputFile stdin
    refine ⟨hrun, ?_⟩
    rw [hrun]
    dsimp only
    rw [opensClean_text_iff]
    by_cases hclean : d.isClean = true
    · rw [if_pos hclean]
      exact iff_of_true rfl hclean
    · rw [if_neg hclean]
      exact iff_of_false Nat.one_ne_zero hclean

/-- Where the check of the program looks for crates, if paths begin next to them. -/
theorem place?_crates {t : Tree} {base : String} (hbase : t.base = [base])
    (hnode : t.node? [base, "crates"] = some .directory) :
    t.place? true (Registry.shelf "." Catalog.registry.root).directory =
      some (.present [base, "crates"]) := by
  have hshelf : (Registry.shelf "." Catalog.registry.root).directory = "./crates" := by decide
  have hsteps : Path.steps "./crates" = [".", "crates"] := by decide
  have hstart : t.start "./crates" = [base] := by
    rw [Tree.start, hbase]
    rfl
  have hnode' : t.node? ([base] ++ ["crates"]) = some .directory := hnode
  rw [hshelf, Tree.place?, if_pos (by decide), hstart, hsteps, Tree.walk, if_pos (by decide),
    Tree.walk, if_neg (by decide), if_neg (by decide), if_neg (by decide)]
  simp only [hnode']
  rw [Tree.walk]
  rfl

/-- Drifts that differ in the place of an empty name alone have different texts.  The check of a
tree with an empty directory of crates exits with 1 and does not open with the line; with a
directory for each crate of the catalog it exits with 0 and opens with it. -/
theorem text_lossless_empty :
    let first : Drift := ⟨["Found", ""], ["-"], [⟨"also", "matches"⟩]⟩
    let second : Drift := ⟨["Found"], ["", "-"], [⟨"also", "matches"⟩]⟩
    let t : Tree := (Tree.blank "work").put ["work", "crates"] .directory
    let stocked : Tree :=
      t.withDirectories ["work", "crates"] (Catalog.crates.map ("cairo-lang-" ++ ·))
    first.IsSolid ∧ second.IsSolid ∧ second.text ≠ first.text ∧
    ¬ OpensClean first.text ∧
    Invocation.read ["check-registry"] = .ok (.checkRegistry {}) ∧
    (∃ d, t.drift "." Catalog.registry = .ok d ∧
      (run t none ["check-registry"] .empty).1.exit.code = 1 ∧
      ¬ OpensClean (run t none ["check-registry"] .empty).1.printed) ∧
    ∃ d, stocked.drift "." Catalog.registry = .ok d ∧
      (run stocked none ["check-registry"] .empty).1.exit.code = 0 ∧
      OpensClean (run stocked none ["check-registry"] .empty).1.printed := by
  intro first second t stocked
  have hfirst : first.IsSolid := ⟨by decide, by decide, by decide, by decide⟩
  have hsecond : second.IsSolid := ⟨by decide, by decide, by decide, by decide⟩
  have hne : second.text ≠ first.text := by
    intro htext
    have hmissing := ((text_lossless first).1 hfirst second hsecond htext).1
    exact absurd hmissing (by decide)
  have hopens : ¬ OpensClean first.text := by
    rw [(text_lossless first).2.1]
    decide
  have hread : Invocation.read ["check-registry"] = .ok (.checkRegistry {}) := by
    have hword : Command.Word.ofText "check-registry" = .plain "check-registry" := by decide
    rw [Invocation.read, hword]
    rfl
  have hnode : t.node? ["work", "crates"] = some .directory :=
    Tree.node?_put_self (by decide) .directory
  have hempty : ∀ n, t.node? (["work", "crates"] ++ [n]) = none := by
    intro n
    rw [Tree.node?_put_of_ne (by simp)]
    simp [Tree.blank, Tree.node?]
  have hstocked : stocked.node? ["work", "crates"] = some .directory := by
    rw [Tree.node?_withDirectories, hnode, if_neg (by simp)]
  have hbase : stocked.base = ["work"] := Tree.base_withDirectories t _ _
  have hstart : (Registry.shelf "." Catalog.registry.root).start = "cairo-lang-" := by decide
  have hplace := place?_crates rfl hnode
  have hplace' := place?_crates hbase hstocked
  obtain ⟨d, hd⟩ := Tree.exists_drift_of_place? hplace (congrArg (Option.any _) hnode)
  obtain ⟨d', hd'⟩ := Tree.exists_drift_of_place? hplace' (congrArg (Option.any _) hstocked)
  have hdrifted : ¬ d.isClean = true := by
    rw [Tree.isClean_drift_iff hplace hd]
    intro h
    have hcasm := ((h "casm").mpr (by decide)).2
    rw [hempty] at hcasm
    cases hcasm
  have hclean : d'.isClean = true :=
    Tree.isClean_drift_withDirectories hempty (by rw [hstart]; rfl) hplace' hd'
  obtain ⟨hrun, hexit⟩ := (text_lossless d).2.2 t none ["check-registry"] .empty {} hread hd
  obtain ⟨hrun', hexit'⟩ :=
    (text_lossless d').2.2 stocked none ["check-registry"] .empty {} hread hd'
  rw [hrun, if_neg hdrifted] at hexit ⊢
  rw [hrun', if_pos hclean] at hexit' ⊢
  exact ⟨hfirst, hsecond, hne, hopens, hread, ⟨d, hd, rfl, fun h => Nat.one_ne_zero (hexit.mpr h)⟩,
    d', hd', rfl, hexit'.mp rfl⟩

end Drift
end ChangeImpact
