/-
Reading a published list out of a text.

`readSetOutput` looks at lines only.  Ended lines without the mark may stand
before the publishing line, and any lines may stand after it: the name and the
list are read as they were published, provided the name passes its check and the
list stays on its line.  `readSetOutput_append` and `readSetOutput_setOutput` are
the two halves of this.

`Publishes` says when something is read at all: only the first line with the mark
counts, and it counts for nothing without a separator.

An output file is a list of entries, one on each line.  The name holds no equals sign,
so an entry is cut where it was put together.
-/
import ChangeImpact.Announcement
import ChangeImpact.Settings
import ChangeImpact.Proofs.Text.Lines
import ChangeImpact.Proofs.Text.Pieces

namespace ChangeImpact
namespace Announcement

/-- No line of the text publishes a list. -/
def Unmarked (s : String) : Prop :=
  ∀ l ∈ Text.lines s.toList, ¬ mark.toList <+: l

/-- The last line of the text is ended too. -/
def Ended (s : String) : Prop :=
  s = "" ∨ ∃ r, s = r ++ "\n"

variable {a s : String}

theorem lines_append (ha : Ended a) (b : String) :
    Text.lines (a ++ b).toList = Text.lines a.toList ++ Text.lines b.toList := by
  rcases ha with ha | ⟨r, ha⟩
  · rw [ha, String.empty_append]
    rfl
  · rw [ha, String.toList_append, String.toList_append]
    show Text.lines (r.toList ++ ['\n'] ++ b.toList) = Text.lines (r.toList ++ ['\n']) ++ _
    rw [List.append_assoc, List.singleton_append, Text.lines_append_feed_append]

theorem findSome?_lines_eq_none_iff :
    (Text.lines s.toList).findSome? (Text.dropWord? mark.toList) = none ↔ Unmarked s := by
  rw [List.findSome?_eq_none_iff]
  exact forall₂_congr fun l _ => Text.dropWord?_eq_none_iff

/-- Ended lines without the mark do not count. -/
theorem readSetOutput_append (hu : Unmarked a) (ha : Ended a) (b : String) :
    readSetOutput (a ++ b) = readSetOutput b := by
  unfold readSetOutput
  rw [lines_append ha, List.findSome?_append, findSome?_lines_eq_none_iff.mpr hu, Option.none_or]

/-! ## Texts that publish -/

/-- The first of the lines that has the mark has a separator after it. -/
def Publishes (ls : List (List Char)) : Prop :=
  ∃ skipped rest later, ls = skipped ++ (mark.toList ++ rest) :: later ∧
    (∀ l ∈ skipped, ¬ mark.toList <+: l) ∧ separator.toList <:+: rest

theorem publishes_iff {ls : List (List Char)} :
    Publishes ls ↔ ∃ rest, ls.findSome? (Text.dropWord? mark.toList) = some rest ∧
      separator.toList <:+: rest := by
  constructor
  · intro h
    obtain ⟨skipped, rest, later, hls, hskipped, hsep⟩ := h
    refine ⟨rest, List.findSome?_eq_some_iff.mpr ?_, hsep⟩
    exact ⟨skipped, _, later, hls, Text.dropWord?_append _ _,
      fun l hl => Text.dropWord?_eq_none_iff.mpr (hskipped l hl)⟩
  · intro h
    obtain ⟨rest, hfind, hsep⟩ := h
    obtain ⟨skipped, l, later, hls, hl, hskipped⟩ := List.findSome?_eq_some_iff.mp hfind
    rw [Text.dropWord?_eq_some_iff] at hl
    subst hl
    exact ⟨skipped, rest, later, hls,
      fun x hx => Text.dropWord?_eq_none_iff.mp (hskipped x hx), hsep⟩

theorem readSetOutput_eq_none_iff :
    readSetOutput s = none ↔ ¬ Publishes (Text.lines s.toList) := by
  rw [publishes_iff]
  unfold readSetOutput
  cases (Text.lines s.toList).findSome? (Text.dropWord? mark.toList) with
  | none =>
    constructor
    · intro _ h
      obtain ⟨_, h, -⟩ := h
      cases h
    · intro _
      rfl
  | some rest =>
    show (Text.splitFirst? _ rest).map _ = none ↔ _
    rw [Option.map_eq_none_iff, Text.splitFirst?_eq_none_iff]
    constructor
    · intro hnot h
      obtain ⟨r, hr, hsep⟩ := h
      rw [Option.some.inj hr] at hnot
      exact hnot hsep
    · intro hnot hsep
      exact hnot ⟨rest, rfl, hsep⟩

theorem publishes_cons_iff {l : List Char} {ls : List (List Char)} (hl : ¬ mark.toList <+: l) :
    Publishes (l :: ls) ↔ Publishes ls := by
  rw [publishes_iff, publishes_iff, List.findSome?_cons, Text.dropWord?_eq_none_iff.mpr hl]

/-! ## The publishing line -/

theorem toList_setOutput (name : String) (jobs : JobList) :
    (setOutput name jobs).toList =
      mark.toList ++ (name.toList ++ separator.toList ++ jobs.joined.toList) := by
  simp only [setOutput, String.toList_append, List.append_assoc]

theorem not_disallowed_of_nameFault? {name : String} (h : Settings.nameFault? name = none)
    {c : Char} (hc : Settings.isDisallowed c = true) : c ∉ name.toList := by
  intro hm
  have := (Settings.nameFault?_eq_none_iff.mp h).2 c hm
  rw [hc] at this
  cases this

theorem feed_not_mem_setOutput {name : String} {jobs : JobList}
    (hname : Settings.nameFault? name = none) (hfeed : '\n' ∉ jobs.joined.toList) :
    '\n' ∉ (setOutput name jobs).toList := by
  rw [toList_setOutput, List.mem_append, List.mem_append, List.mem_append]
  intro hm
  rcases hm with hm | (hm | hm) | hm
  · exact absurd hm (by decide)
  · exact not_disallowed_of_nameFault? hname (by decide) hm
  · exact absurd hm (by decide)
  · exact hfeed hm

theorem getLast?_setOutput_ne_return {name : String} {jobs : JobList}
    (hreturn : jobs.joined.toList.getLast? ≠ some '\r') :
    (setOutput name jobs).toList.getLast? ≠ some '\r' := by
  have hsep : (name.toList ++ separator.toList).getLast? = some ':' := by
    rw [List.getLast?_append, show separator.toList.getLast? = some ':' by decide,
      Option.some_or]
  rw [toList_setOutput]
  refine Text.getLast?_append_ne (by decide) (Text.getLast?_append_ne ?_ hreturn)
  rw [hsep]
  decide

theorem exists_lines_setOutput {name : String} {jobs : JobList}
    (hname : Settings.nameFault? name = none) (hfeed : '\n' ∉ jobs.joined.toList)
    (hreturn : jobs.joined.toList.getLast? ≠ some '\r') {post : String}
    (hpost : post = "" ∨ ∃ r, post = "\n" ++ r) :
    ∃ later, Text.lines (setOutput name jobs ++ post).toList =
      (setOutput name jobs).toList :: later := by
  have hline := feed_not_mem_setOutput hname hfeed
  rcases hpost with hpost | ⟨r, hpost⟩
  · refine ⟨[], ?_⟩
    rw [hpost, String.append_empty]
    refine Text.lines_of_feed_not_mem hline ?_
    rw [toList_setOutput]
    exact List.append_ne_nil_of_left_ne_nil (by decide) _
  · refine ⟨Text.lines r.toList, ?_⟩
    rw [hpost, String.toList_append, String.toList_append]
    show Text.lines (_ ++ '\n' :: r.toList) = _
    rw [Text.lines_append_feed hline,
      Text.dropReturn_of_getLast? (getLast?_setOutput_ne_return hreturn)]

/-- A published list is read from its line, whatever follows. -/
theorem readSetOutput_setOutput {name : String} {jobs : JobList}
    (hname : Settings.nameFault? name = none) (hfeed : '\n' ∉ jobs.joined.toList)
    (hreturn : jobs.joined.toList.getLast? ≠ some '\r') {post : String}
    (hpost : post = "" ∨ ∃ r, post = "\n" ++ r) :
    readSetOutput (setOutput name jobs ++ post) = some (name, jobs.joined) := by
  obtain ⟨later, hlines⟩ := exists_lines_setOutput hname hfeed hreturn hpost
  have hcolon : ':' ∉ name.toList := not_disallowed_of_nameFault? hname (by decide)
  have hcut : Text.splitFirst? separator.toList
      (name.toList ++ separator.toList ++ jobs.joined.toList) =
      some (name.toList, jobs.joined.toList) :=
    Text.splitFirst?_append hcolon jobs.joined.toList
  unfold readSetOutput
  rw [hlines, List.findSome?_cons, toList_setOutput, Text.dropWord?_append]
  show (Text.splitFirst? separator.toList _).map _ = _
  rw [hcut, Option.map_some, String.ofList_toList, String.ofList_toList]

/-! ## Entries of an output file -/

/-- The name and the list in one entry. -/
def entryOfLine? (line : List Char) : Option (String × String) :=
  (Text.splitFirst? ['='] line).map fun p => (String.ofList p.1, String.ofList p.2)

/-- The entries of an output file, in their order. -/
def readEntries (text : String) : List (String × String) :=
  (Text.lines text.toList).filterMap entryOfLine?

theorem readEntries_append (ha : Ended a) (b : String) :
    readEntries (a ++ b) = readEntries a ++ readEntries b := by
  rw [readEntries, lines_append ha, List.filterMap_append]
  rfl

/-- An entry is read back, and it is the only one in its text. -/
theorem readEntries_outputEntry {name : String} {jobs : JobList}
    (hname : Settings.nameFault? name = none) (hfeed : '\n' ∉ jobs.joined.toList)
    (hreturn : jobs.joined.toList.getLast? ≠ some '\r') :
    readEntries (outputEntry name jobs) = [(name, jobs.joined)] := by
  have hline : '\n' ∉ name.toList ++ ['='] ++ jobs.joined.toList := by
    simp only [List.mem_append, not_or]
    exact ⟨⟨not_disallowed_of_nameFault? hname (by decide), by decide⟩, hfeed⟩
  have hlast : (name.toList ++ ['='] ++ jobs.joined.toList).getLast? ≠ some '\r' := by
    refine Text.getLast?_append_ne ?_ hreturn
    rw [List.getLast?_append]
    show some '=' ≠ some '\r'
    decide
  have hentry : (outputEntry name jobs).toList =
      name.toList ++ ['='] ++ jobs.joined.toList ++ '\n' :: [] := by
    simp only [outputEntry, String.toList_append]
    rfl
  have hcut : Text.splitFirst? ['='] (name.toList ++ ['='] ++ jobs.joined.toList) =
      some (name.toList, jobs.joined.toList) :=
    Text.splitFirst?_append (not_disallowed_of_nameFault? hname (by decide)) _
  have hread : entryOfLine? (name.toList ++ ['='] ++ jobs.joined.toList) =
      some (name, jobs.joined) := by
    rw [entryOfLine?, hcut, Option.map_some, String.ofList_toList, String.ofList_toList]
  rw [readEntries, hentry, Text.lines_append_feed hline, Text.dropReturn_of_getLast? hlast,
    List.filterMap_cons_some hread]
  rfl

end Announcement
end ChangeImpact
