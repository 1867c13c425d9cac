/-
Fields of a fixed width.

Widths count characters.  A field is first cut to its greatest length, if it has
one, and then filled up to its least length; a longer text is never cut by the
least length, so columns of a table stay readable but may shift.
-/

namespace ChangeImpact
namespace Text

/-- On which side a field is filled: the text stands at the left, at the right or
in the middle. -/
inductive Alignment where
  | left
  | right
  | center
deriving DecidableEq, Repr

/-- How a text is fitted into a field. -/
structure Field where
  width : Nat := 0
  /-- The greatest number of characters taken from the text. -/
  limit : Option Nat := none
  /-- Where the text stands. -/
  alignment : Alignment := .left
  filler : Char := ' '
deriving DecidableEq, Repr

namespace Field

/-- The part of the text that the field takes. -/
def cut (f : Field) (s : List Char) : List Char :=
  match f.limit with
  | none => s
  | some n => s.take n

/-- How many filling characters stand left of a text when `n` are needed.  In the
middle an odd one goes to the right. -/
def before (f : Field) (n : Nat) : Nat :=
  match f.alignment with
  | .left => 0
  | .right => n
  | .center => n / 2

def fit (f : Field) (s : List Char) : List Char :=
  let t := f.cut s
  let n := f.width - t.length
  List.replicate (f.before n) f.filler ++ t ++ List.replicate (n - f.before n) f.filler

theorem before_le (f : Field) (n : Nat) : f.before n ≤ n := by
  unfold before; split <;> omega

/-- A field has its width, or more if the text has. -/
theorem length_fit (f : Field) (s : List Char) :
    (f.fit s).length = max f.width (f.cut s).length := by
  have := f.before_le (f.width - (f.cut s).length)
  simp only [fit, List.length_append, List.length_replicate]
  omega

end Field

/-- A text at the left of a column of `n` characters. -/
def column (n : Nat) (s : String) : String :=
  String.ofList (Field.fit { width := n } s.toList)

theorem toList_column (n : Nat) (s : String) :
    (column n s).toList = s.toList ++ List.replicate (n - s.toList.length) ' ' := by
  simp [column, Field.fit, Field.cut, Field.before]

end Text
end ChangeImpact
