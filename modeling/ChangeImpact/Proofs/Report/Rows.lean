/-
Reading the rows of a summary.

A row puts the token and the path between back quotes and escapes neither.  The token
ends at the first back quote, so it must not hold one; the path may hold anything but a
line feed, because it ends at the end of its line.
-/
import ChangeImpact.Report.Summary
import ChangeImpact.Proofs.Text.Lines
import ChangeImpact.Proofs.Text.Pieces

namespace ChangeImpact

namespace Text

/-- What stands in front of the word `w` at the end of a text. -/
def dropEnd? (w s : List Char) : Option (List Char) :=
  (dropWord? w.reverse s.reverse).map List.reverse

theorem dropEnd?_append (r w : List Char) : dropEnd? w (r ++ w) = some r := by
  rw [dropEnd?, List.reverse_append, dropWord?_append, Option.map_some, List.reverse_reverse]

end Text

/-- The end of a kind's cell and the back quote that opens the path. -/
def Kind.cell (k : Kind) : List Char :=
  (k.label ++ " | `").toList

/-- The kind in the cell at the beginning of a text, and what follows. -/
def Kind.readCell? (s : List Char) : Option (Kind × List Char) :=
  Kind.all.findSome? fun k => (Text.dropWord? k.cell s).map fun rest => (k, rest)

/-- No kind's cell begins another one's. -/
theorem Kind.readCell?_append (k : Kind) (rest : List Char) :
    readCell? (k.cell ++ rest) = some (k, rest) := by
  cases k <;> rfl

/-- What one row of a summary tells. -/
structure Row where
  job : Token
  kind : Kind
  path : String
deriving DecidableEq, Repr

namespace Row

def opening : List Char := "| `".toList

def closing : List Char := "` |".toList

def afterJob : List Char := "` | ".toList

/-- Reads a row from its line. -/
def read? (line : List Char) : Option Row :=
  (Text.dropWord? opening line).bind fun cells =>
  (Text.splitFirst? afterJob cells).bind fun job =>
  (Kind.readCell? job.2).bind fun kind =>
  (Text.dropEnd? closing kind.2).map fun path =>
    ⟨⟨String.ofList job.1⟩, kind.1, String.ofList path⟩

/-- The line of a row. -/
def line (r : Row) : List Char :=
  opening ++ (r.job.text.toList ++ afterJob ++ (r.kind.cell ++ (r.path.toList ++ closing)))

/-- The cells of a row can be told apart. -/
structure IsPlain (r : Row) : Prop where
  quote_not_mem : '`' ∉ r.job.text.toList
  job_on_line : '\n' ∉ r.job.text.toList
  path_on_line : '\n' ∉ r.path.toList

theorem read?_line {r : Row} (h : '`' ∉ r.job.text.toList) : read? r.line = some r := by
  have hcut : Text.splitFirst? afterJob
      (r.job.text.toList ++ afterJob ++ (r.kind.cell ++ (r.path.toList ++ closing))) =
      some (r.job.text.toList, r.kind.cell ++ (r.path.toList ++ closing)) :=
    Text.splitFirst?_append h _
  rw [read?, line, Text.dropWord?_append, Option.bind_some, hcut, Option.bind_some,
    Kind.readCell?_append, Option.bind_some, Text.dropEnd?_append, Option.map_some,
    String.ofList_toList, String.ofList_toList]

theorem feed_not_mem_line {r : Row} (h : r.IsPlain) : '\n' ∉ r.line := by
  have hkind : '\n' ∉ r.kind.cell := by
    cases r.kind <;> decide
  simp only [line, List.mem_append, not_or]
  exact ⟨by decide, ⟨h.job_on_line, by decide⟩, hkind, h.path_on_line, by decide⟩

theorem head?_line (r : Row) : r.line.head? = some '|' := rfl

theorem getLast?_line (r : Row) : r.line.getLast? = some '|' := by
  have hclosing : closing.getLast? = some '|' := by decide
  simp only [line, List.getLast?_append, hclosing, Option.some_or]

/-- Whether a line opens as the rows of a table do. -/
def isRow (l : List Char) : Bool :=
  opening.isPrefixOf l

theorem isRow_line (r : Row) : isRow r.line = true := by
  rw [isRow, List.isPrefixOf_iff_prefix, line]
  exact List.prefix_append _ _

/-- Nothing is read from a line that opens otherwise. -/
theorem read?_of_not_isRow {l : List Char} (h : ¬ isRow l = true) : read? l = none := by
  rw [isRow, List.isPrefixOf_iff_prefix] at h
  rw [read?, Text.dropWord?_eq_none_iff.mpr h, Option.bind_none]

theorem isLine_line {r : Row} (h : r.IsPlain) : Text.IsLine r.line where
  feed_not_mem := feed_not_mem_line h
  getLast?_ne := by
    rw [getLast?_line]
    decide

end Row

/-- The row of a match. -/
def Match.toRow (m : Match) : Row :=
  ⟨m.job, m.kind, m.path⟩

theorem Match.toList_row (m : Match) : m.row.toList = m.toRow.line ++ ['\n'] := by
  simp [Match.row, Match.toRow, Row.line, Row.opening, Row.closing, Row.afterJob, Kind.cell]

/-- The rows of a text, such as a summary. -/
def Report.readRows (text : String) : List Row :=
  (Text.lines text.toList).filterMap Row.read?

end ChangeImpact
