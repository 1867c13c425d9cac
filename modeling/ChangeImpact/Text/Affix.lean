/-
Beginnings, endings and occurrences in a text.

Texts are compared character by character, so the tests here are the list
relations `<+:`, `<:+` and `<:+:`, and each test comes with the lemma that says
so.  `splitFirst?` cuts a text at the first occurrence of a separator, and
`eq_append_of_splitFirst?` says that nothing is lost by the cut.
-/

namespace ChangeImpact
namespace Text

/-- Whether the word `w` occurs anywhere in a text. -/
def occursIn (w : List Char) : List Char → Bool
  | [] => w.isEmpty
  | c :: r => w.isPrefixOf (c :: r) || occursIn w r

theorem occursIn_iff {w s : List Char} : occursIn w s = true ↔ w <:+: s := by
  induction s with
  | nil => simp [occursIn]
  | cons c r ih =>
    rw [occursIn, Bool.or_eq_true, ih, List.isPrefixOf_iff_prefix, List.infix_cons_iff]

/-- What follows the word `w` at the beginning of a text. -/
def dropWord? : List Char → List Char → Option (List Char)
  | [], s => some s
  | _ :: _, [] => none
  | w :: ws, c :: r => if w = c then dropWord? ws r else none

theorem dropWord?_eq_some_iff {w s r : List Char} : dropWord? w s = some r ↔ s = w ++ r := by
  induction w generalizing s with
  | nil => simp [dropWord?]
  | cons a w ih =>
    cases s with
    | nil => simp [dropWord?]
    | cons c s =>
      rw [dropWord?]
      split
      · next h => subst h; simp [ih]
      · next h => simp [Ne.symm h]

theorem dropWord?_append (w r : List Char) : dropWord? w (w ++ r) = some r :=
  dropWord?_eq_some_iff.2 rfl

/-- The parts before and after the first occurrence of the word `w`. -/
def splitFirst? (w : List Char) : List Char → Option (List Char × List Char)
  | [] => (dropWord? w []).map ([], ·)
  | c :: s =>
    match dropWord? w (c :: s) with
    | some r => some ([], r)
    | none => (splitFirst? w s).map fun p => (c :: p.1, p.2)

theorem eq_append_of_splitFirst? {w s a b : List Char} (h : splitFirst? w s = some (a, b)) :
    s = a ++ w ++ b := by
  induction s generalizing a with
  | nil =>
    simp only [splitFirst?, Option.map_eq_some_iff, Prod.mk.injEq] at h
    obtain ⟨r, hr, rfl, rfl⟩ := h
    simpa using dropWord?_eq_some_iff.1 hr
  | cons c s ih =>
    rw [splitFirst?] at h
    split at h
    · next r hr =>
      simp only [Option.some.injEq, Prod.mk.injEq] at h
      obtain ⟨rfl, rfl⟩ := h
      simpa using dropWord?_eq_some_iff.1 hr
    · simp only [Option.map_eq_some_iff, Prod.mk.injEq] at h
      obtain ⟨⟨a', b'⟩, hp, rfl, rfl⟩ := h
      simp [ih hp]

end Text
end ChangeImpact
