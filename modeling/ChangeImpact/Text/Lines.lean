/-
The lines of a text.

A line ends at a line feed, and a carriage return right before the line feed
belongs to the end and not to the line.  Text after the last line feed is a line
as well unless it is empty, and there a carriage return is kept.
-/

namespace ChangeImpact
namespace Text

/-- Removes one carriage return from the end of a line. -/
def dropReturn (l : List Char) : List Char :=
  if l.getLast? = some '\r' then l.dropLast else l

def lines : List Char → List (List Char)
  | s => go [] s
where
  /-- Collects the characters of the current line in reverse. -/
  go (acc : List Char) : List Char → List (List Char)
    | [] => if acc.isEmpty then [] else [acc.reverse]
    | c :: r => if c = '\n' then dropReturn acc.reverse :: go [] r else go (c :: acc) r

theorem lines.go_of_no_feed {acc l : List Char} (h : '\n' ∉ l) (r : List Char) :
    go acc (l ++ '\n' :: r) = dropReturn (acc.reverse ++ l) :: go [] r := by
  induction l generalizing acc with
  | nil => simp [go]
  | cons c l ih =>
    simp only [List.mem_cons, not_or] at h
    rw [List.cons_append, go, if_neg (Ne.symm h.1), ih h.2]
    simp

/-- A line up to a line feed is read as one line. -/
theorem lines_append_feed {l : List Char} (h : '\n' ∉ l) (r : List Char) :
    lines (l ++ '\n' :: r) = dropReturn l :: lines r := by
  simpa [lines] using @lines.go_of_no_feed [] l h r

end Text
end ChangeImpact
