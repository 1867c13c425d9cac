/-
Cutting a text at a separator.

The pieces of a text lie between the occurrences of one separating character, so
there is one piece more than there are separators.  `split_joinWith` says that
cutting is the inverse of joining for pieces that do not hold the separator.
-/

namespace ChangeImpact
namespace Text

/-- The pieces of a text between the occurrences of `sep`. -/
def split (sep : Char) (s : List Char) : List (List Char) :=
  go [] s
where
  /-- Collects the characters of the current piece in reverse. -/
  go (acc : List Char) : List Char → List (List Char)
    | [] => [acc.reverse]
    | c :: r => if c = sep then acc.reverse :: go [] r else go (c :: acc) r

/-- The pieces with `sep` between any two of them. -/
def joinWith (sep : Char) : List (List Char) → List Char
  | [] => []
  | [p] => p
  | p :: q :: r => p ++ sep :: joinWith sep (q :: r)

theorem split.go_of_not_mem {sep : Char} {acc p : List Char} (h : sep ∉ p) :
    go sep acc p = [acc.reverse ++ p] := by
  induction p generalizing acc with
  | nil => simp [go]
  | cons c p ih =>
    simp only [List.mem_cons, not_or] at h
    rw [go, if_neg (Ne.symm h.1), ih h.2]
    simp

theorem split.go_append {sep : Char} {acc p : List Char} (h : sep ∉ p) (r : List Char) :
    go sep acc (p ++ sep :: r) = (acc.reverse ++ p) :: go sep [] r := by
  induction p generalizing acc with
  | nil => simp [go]
  | cons c p ih =>
    simp only [List.mem_cons, not_or] at h
    rw [List.cons_append, go, if_neg (Ne.symm h.1), ih h.2]
    simp

theorem split_of_not_mem {sep : Char} {p : List Char} (h : sep ∉ p) : split sep p = [p] :=
  split.go_of_not_mem h

theorem split_append {sep : Char} {p : List Char} (h : sep ∉ p) (r : List Char) :
    split sep (p ++ sep :: r) = p :: split sep r :=
  split.go_append h r

theorem split_joinWith {sep : Char} {ps : List (List Char)} (hne : ps ≠ [])
    (h : ∀ p ∈ ps, sep ∉ p) : split sep (joinWith sep ps) = ps := by
  induction ps with
  | nil => exact absurd rfl hne
  | cons p ps ih =>
    cases ps with
    | nil => exact split_of_not_mem (h p (by simp))
    | cons q r =>
      rw [joinWith, split_append (h p (by simp)), ih (by simp) fun x hx => h x (by simp [hx])]

end Text
end ChangeImpact
