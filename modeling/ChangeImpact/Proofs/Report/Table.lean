/-
The lines of a summary.

Four lines stand at the head of a summary, and the third of them states the number of jobs.
Below stands the remark that no job was selected, or the table with one row for each match.
A path may look like cells and like rows, but it stays on its line, and behind the opening of
a row nothing that a path holds can end its cell: the path ends where its line does.  So
`summary_lossless` can say which of the lines are rows and what each of them tells, and that
no two selections with different rows share a summary.
-/
import ChangeImpact.Proofs.Report.Rows

namespace ChangeImpact

namespace Report

def title : List Char := "# testscope selection".toList

/-- How the line with the number of jobs begins. -/
def countMark : List Char := "- Jobs: ".toList

/-- Whether a line states the number of jobs. -/
def isCount (l : List Char) : Bool := countMark.isPrefixOf l

def countLine (n : Nat) : List Char := countMark ++ (toString n).toList

def headLines (n : Nat) : List (List Char) :=
  [title, [], countLine n, []]

/-- The line that stands in the place of an empty table. -/
def remark : List Char := "_No jobs selected._".toList

def tableHead : List (List Char) :=
  ["| Job | Kind | Triggered by |".toList, "|---|---|---|".toList]

/-- The lines below the head of a summary. -/
def bodyLines (found : List Match) : List (List Char) :=
  if found = [] then [remark] else tableHead ++ found.map fun m => m.toRow.line

/-- The lines of a summary, as they are read. -/
def lines (r : Report) : List (List Char) :=
  Text.lines r.summary.toList

variable {r : Report} {found : List Match}

theorem toList_summaryHead (r : Report) :
    r.summaryHead.toList = Text.unlines (headLines r.jobs.length) := by
  have hopen : "# testscope selection\n\n- Jobs: ".toList =
      title ++ '\n' :: '\n' :: countMark := by decide
  have hclose : "\n\n".toList = ['\n', '\n'] := by decide
  unfold summaryHead headLines countLine
  -- The text of the number must not be computed when the literals are looked for.
  generalize toString r.jobs.length = digits
  simp only [String.toList_append, hopen, hclose, Text.unlines_cons, Text.unlines_nil,
    List.append_assoc, List.cons_append, List.nil_append]

theorem toList_summaryBody (r : Report) :
    r.summaryBody.toList = Text.unlines (bodyLines r.found) := by
  unfold summaryBody bodyLines
  by_cases hfound : r.found = []
  · rw [if_pos (List.isEmpty_iff.mpr hfound), if_pos hfound]
    decide
  · have hhead : "| Job | Kind | Triggered by |\n|---|---|---|\n".toList =
        Text.unlines tableHead := by decide
    rw [if_neg fun he => hfound (List.isEmpty_iff.mp he), if_neg hfound, String.toList_append,
      hhead, Text.toList_join_map Match.toList_row, Text.unlines_append]

theorem isLine_toString (n : Nat) : Text.IsLine (toString n).toList := by
  have hdigit : ∀ c ∈ (toString n).toList, c.isDigit = true := by
    intro c hc
    rw [Nat.toString_eq_repr, Nat.toList_repr] at hc
    exact Nat.isDigit_of_mem_toDigits (by decide) (by decide) hc
  exact ⟨fun h => absurd (hdigit _ h) (by decide),
    fun h => absurd (hdigit _ (List.mem_of_getLast? h)) (by decide)⟩

theorem isLine_of_mem_headLines {n : Nat} {l : List Char} (hl : l ∈ headLines n) :
    Text.IsLine l := by
  have hcount : Text.IsLine (countLine n) := Text.IsLine.append (by decide) (isLine_toString n)
  revert l
  simp only [headLines, List.forall_mem_cons]
  exact ⟨by decide, by decide, hcount, by decide, nofun⟩

/-- Below the head stands the remark, the head of the table or a row. -/
theorem cases_of_mem_bodyLines {l : List Char} (hl : l ∈ bodyLines found) :
    l = remark ∧ found = [] ∨ l ∈ tableHead ∨ ∃ m ∈ found, l = m.toRow.line := by
  unfold bodyLines at hl
  split at hl
  · next hfound => exact .inl ⟨List.mem_singleton.mp hl, hfound⟩
  · rcases List.mem_append.mp hl with hl | hl
    · exact .inr (.inl hl)
    · obtain ⟨m, hm, rfl⟩ := List.mem_map.mp hl
      exact .inr (.inr ⟨m, hm, rfl⟩)

theorem isLine_of_mem_bodyLines (h : ∀ m ∈ found, m.toRow.IsPlain) {l : List Char}
    (hl : l ∈ bodyLines found) : Text.IsLine l := by
  have hhead : ∀ l ∈ tableHead, Text.IsLine l := by decide
  rcases cases_of_mem_bodyLines hl with ⟨rfl, -⟩ | hl | ⟨m, hm, rfl⟩
  · decide
  · exact hhead l hl
  · exact Row.isLine_line (h m hm)

theorem lines_eq (h : ∀ m ∈ r.found, m.toRow.IsPlain) :
    r.lines = headLines r.jobs.length ++ bodyLines r.found := by
  have htext : r.summary.toList =
      Text.unlines (headLines r.jobs.length ++ bodyLines r.found) := by
    rw [summary, String.toList_append, toList_summaryHead, toList_summaryBody,
      Text.unlines_append]
  rw [lines, htext, Text.lines_unlines]
  rw [List.forall_mem_append]
  exact ⟨fun l hl => isLine_of_mem_headLines hl, fun l hl => isLine_of_mem_bodyLines h hl⟩

/-! ## Rows, count and remark among the lines -/

theorem filter_isRow_bodyLines (found : List Match) :
    (bodyLines found).filter Row.isRow = found.map fun m => m.toRow.line := by
  unfold bodyLines
  by_cases hfound : found = []
  · rw [if_pos hfound, hfound]
    decide
  · have hhead : tableHead.filter Row.isRow = [] := by decide
    rw [if_neg hfound, List.filter_append, hhead, List.nil_append, List.filter_eq_self]
    intro l hl
    obtain ⟨m, -, rfl⟩ := List.mem_map.mp hl
    exact m.toRow.isRow_line

theorem not_isCount_of_mem_bodyLines {l : List Char} (hl : l ∈ bodyLines found) :
    ¬ isCount l = true := by
  have hhead : ∀ l ∈ tableHead, ¬ isCount l = true := by decide
  rcases cases_of_mem_bodyLines hl with ⟨rfl, -⟩ | hl | ⟨m, -, rfl⟩
  · decide
  · exact hhead l hl
  · exact Bool.false_ne_true

theorem isCount_countLine (n : Nat) : isCount (countLine n) = true := by
  rw [isCount, List.isPrefixOf_iff_prefix]
  exact List.prefix_append _ _

theorem remark_mem_bodyLines_iff : remark ∈ bodyLines found ↔ found = [] := by
  constructor
  · intro hl
    rcases cases_of_mem_bodyLines hl with ⟨-, hfound⟩ | hl | ⟨m, -, hm⟩
    · exact hfound
    · exact absurd hl (by decide)
    · have hbar : remark.head? = some '|' := by rw [hm, Row.head?_line]
      exact absurd hbar (by decide)
  · intro hfound
    rw [bodyLines, if_pos hfound]
    exact List.mem_singleton_self _

theorem filter_isRow_lines (h : ∀ m ∈ r.found, m.toRow.IsPlain) :
    r.lines.filter Row.isRow = r.found.map fun m => m.toRow.line := by
  have hhead : (headLines r.jobs.length).filter Row.isRow = [] := by
    have hcount : ¬ Row.isRow (countLine r.jobs.length) = true := Bool.false_ne_true
    rw [List.filter_eq_nil_iff]
    simp only [headLines, List.forall_mem_cons]
    exact ⟨by decide, by decide, hcount, by decide, nofun⟩
  rw [lines_eq h, List.filter_append, hhead, List.nil_append, filter_isRow_bodyLines]

theorem filter_isCount_lines (h : ∀ m ∈ r.found, m.toRow.IsPlain) :
    r.lines.filter isCount = [countLine r.jobs.length] := by
  have hbody : (bodyLines r.found).filter isCount = [] :=
    List.filter_eq_nil_iff.mpr fun l hl => not_isCount_of_mem_bodyLines hl
  have hhead : (headLines r.jobs.length).filter isCount = [countLine r.jobs.length] := by
    rw [headLines, List.filter_cons_of_neg (by decide), List.filter_cons_of_neg (by decide),
      List.filter_cons_of_pos (isCount_countLine _), List.filter_cons_of_neg (by decide),
      List.filter_nil]
  rw [lines_eq h, List.filter_append, hhead, hbody, List.append_nil]

theorem remark_mem_lines_iff (h : ∀ m ∈ r.found, m.toRow.IsPlain) :
    remark ∈ r.lines ↔ r.found = [] := by
  have hhead : remark ∉ headLines r.jobs.length := by
    have hcount : remark ≠ countLine r.jobs.length := by
      intro he
      have hdash : remark.head? = some '-' := by
        rw [he]
        rfl
      exact absurd hdash (by decide)
    simp only [headLines, List.mem_cons, List.not_mem_nil, not_or]
    exact ⟨by decide, by decide, hcount, by decide, not_false⟩
  rw [lines_eq h, List.mem_append, or_iff_right hhead, remark_mem_bodyLines_iff]

/-- The rows of a summary are those of the matches, in their order. -/
theorem readRows_summary (h : ∀ m ∈ r.found, m.toRow.IsPlain) :
    readRows r.summary = r.found.map Match.toRow := by
  have hskip : ∀ l, (if Row.isRow l = true then Row.read? l else none) = Row.read? l := by
    intro l
    split
    · rfl
    · next hl => exact (Row.read?_of_not_isRow hl).symm
  calc readRows r.summary = r.lines.filterMap Row.read? := rfl
    _ = (r.lines.filter Row.isRow).filterMap Row.read? := by
        rw [List.filterMap_filter]
        exact List.filterMap_congr fun l _ => (hskip l).symm
    _ = r.found.filterMap fun m => Row.read? m.toRow.line := by
        rw [filter_isRow_lines h, List.filterMap_map]
        rfl
    _ = r.found.map Match.toRow := by
        rw [← List.filterMap_eq_map]
        exact List.filterMap_congr fun m hm => Row.read?_line (h m hm).quote_not_mem

/-- Among the lines of a summary the rows are one for each match, in the order of the
matches, and they are read as job, kind and path of these.  One line states a number of jobs,
and it states the number of matches.  The remark stands there exactly if there is no match.
So the summary settles the rows, though neither the tool nor the crates of the matches. -/
theorem summary_lossless (tool : Tool) (found : List Match)
    (h : ∀ m ∈ found, m.toRow.IsPlain) :
    (ofMatches tool found).lines.filter Row.isRow = found.map (fun m => m.toRow.line) ∧
    readRows (ofMatches tool found).summary = found.map Match.toRow ∧
    (ofMatches tool found).lines.filter isCount = [countLine found.length] ∧
    (remark ∈ (ofMatches tool found).lines ↔ found = []) ∧
    ∀ tool' found', (∀ m ∈ found', m.toRow.IsPlain) →
      (ofMatches tool' found').summary = (ofMatches tool found).summary →
      found'.map Match.toRow = found.map Match.toRow := by
  have hrows : ∀ tool found, (∀ m ∈ found, m.toRow.IsPlain) →
      readRows (ofMatches tool found).summary = found.map Match.toRow :=
    fun tool found h => readRows_summary (r := ofMatches tool found) h
  have hcount : (ofMatches tool found).jobs.length = found.length := List.length_map Match.job
  refine ⟨filter_isRow_lines h, hrows tool found h, ?_, remark_mem_lines_iff h,
    fun tool' found' h' htext => ?_⟩
  · rw [filter_isCount_lines h, hcount]
  · rw [← hrows tool' found' h', htext, hrows tool found h]

/-- A path that closes its cell itself and a path that is a row; the same rows by another tool,
of which the first belongs to no crate. -/
theorem summary_lossless_quotes :
    let first : Match := ⟨⟨"-a-"⟩, .testOnly, some "a", "x` | crate | `y` |"⟩
    let second : Match := ⟨⟨"|"⟩, .trigger, none, "| `b` | crate | `c` |"⟩
    let found' : List Match := [{ first with crateName := none }, second]
    (∀ m ∈ [first, second], m.toRow.IsPlain) ∧ (∀ m ∈ found', m.toRow.IsPlain) ∧
    readRows (ofMatches .current [first, second]).summary =
      [⟨⟨"-a-"⟩, .testOnly, "x` | crate | `y` |"⟩, ⟨⟨"|"⟩, .trigger, "| `b` | crate | `c` |"⟩] ∧
    (ofMatches .current [first, second]).lines.filter isCount = ["- Jobs: 2".toList] ∧
    remark ∉ (ofMatches .current [first, second]).lines ∧
    (ofMatches ⟨"other", none⟩ found').summary =
      (ofMatches .current [first, second]).summary ∧
    found'.map Match.toRow = [first, second].map Match.toRow := by
  intro first second found'
  have hfirst : first.toRow.IsPlain := ⟨by decide, by decide, by decide⟩
  have hsecond : second.toRow.IsPlain := ⟨by decide, by decide, by decide⟩
  have h : ∀ m ∈ [first, second], m.toRow.IsPlain := by
    simp only [List.forall_mem_cons]
    exact ⟨hfirst, hsecond, nofun⟩
  have h' : ∀ m ∈ found', m.toRow.IsPlain := by
    simp only [found', List.forall_mem_cons]
    exact ⟨hfirst, hsecond, nofun⟩
  have htext : (ofMatches ⟨"other", none⟩ found').summary =
      (ofMatches .current [first, second]).summary := rfl
  obtain ⟨-, hrows, hcount, hremark, hsame⟩ := summary_lossless .current [first, second] h
  have hline : countLine [first, second].length = "- Jobs: 2".toList := by decide
  rw [hline] at hcount
  exact ⟨h, h', hrows, hcount, fun hm => List.cons_ne_nil _ _ (hremark.mp hm), htext,
    hsame _ found' h' htext⟩

end Report
end ChangeImpact
