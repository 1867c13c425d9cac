/-
Finding a word in a text, and cutting joined pieces apart.

`splitFirst?` fails exactly on the texts without the word.  A text whose part
before the word does not hold the first character of the word is cut there.
-/
import ChangeImpact.Text.Affix
import ChangeImpact.Text.Split

namespace ChangeImpact
namespace Text

theorem dropWord?_eq_none_iff {w s : List Char} : dropWord? w s = none ↔ ¬ w <+: s := by
  rw [Option.eq_none_iff_forall_ne_some]
  constructor
  · intro h hp
    obtain ⟨r, hr⟩ := hp
    exact h r (dropWord?_eq_some_iff.mpr hr.symm)
  · intro h r hr
    exact h ⟨r, (dropWord?_eq_some_iff.mp hr).symm⟩

theorem splitFirst?_eq_none_iff {w s : List Char} : splitFirst? w s = none ↔ ¬ w <:+: s := by
  induction s with
  | nil =>
    rw [splitFirst?, Option.map_eq_none_iff, dropWord?_eq_none_iff, List.prefix_nil,
      List.infix_nil]
  | cons c s ih =>
    rw [splitFirst?, List.infix_cons_iff, not_or, ← ih, ← dropWord?_eq_none_iff]
    cases hd : dropWord? w (c :: s) with
    | none =>
      show (splitFirst? w s).map _ = none ↔ none = none ∧ _
      rw [Option.map_eq_none_iff]
      exact ⟨fun h => ⟨rfl, h⟩, fun h => h.2⟩
    | some r =>
      constructor
      · intro h
        cases h
      · intro h
        cases h.1

/-- The cut is made at the first place where the word can begin. -/
theorem splitFirst?_append {c : Char} {w a : List Char} (h : c ∉ a) (b : List Char) :
    splitFirst? (c :: w) (a ++ c :: w ++ b) = some (a, b) := by
  induction a with
  | nil =>
    show splitFirst? (c :: w) (c :: (w ++ b)) = _
    rw [splitFirst?, show c :: (w ++ b) = (c :: w) ++ b from rfl, dropWord?_append]
  | cons d a ih =>
    have hd : c ≠ d := fun he => h (he ▸ List.mem_cons_self)
    have ha : c ∉ a := fun hm => h (List.mem_cons_of_mem _ hm)
    have hnone : dropWord? (c :: w) (d :: (a ++ c :: w ++ b)) = none := by
      rw [dropWord?, if_neg hd]
    show splitFirst? (c :: w) (d :: (a ++ c :: w ++ b)) = _
    rw [splitFirst?, hnone]
    show (splitFirst? (c :: w) (a ++ c :: w ++ b)).map _ = _
    rw [ih ha, Option.map_some]

theorem joinWith_eq_intercalate (sep : Char) (ps : List (List Char)) :
    joinWith sep ps = [sep].intercalate ps := by
  induction ps with
  | nil => rfl
  | cons p ps ih =>
    cases ps with
    | nil => rw [joinWith, List.intercalate_singleton]
    | cons q r =>
      rw [joinWith, ih, List.intercalate_cons_cons, List.append_assoc, List.singleton_append]

theorem split_intercalate {sep : Char} {ps : List (List Char)} (hne : ps ≠ [])
    (h : ∀ p ∈ ps, sep ∉ p) : split sep ([sep].intercalate ps) = ps := by
  rw [← joinWith_eq_intercalate, split_joinWith hne h]

theorem mem_of_mem_intercalate {sep c : Char} {ps : List (List Char)}
    (h : c ∈ [sep].intercalate ps) : c = sep ∨ ∃ p ∈ ps, c ∈ p := by
  induction ps with
  | nil => exact absurd h List.not_mem_nil
  | cons p ps ih =>
    cases ps with
    | nil =>
      rw [List.intercalate_singleton] at h
      exact .inr ⟨p, List.mem_cons_self, h⟩
    | cons q r =>
      rw [List.intercalate_cons_cons, List.mem_append, List.mem_append, List.mem_singleton] at h
      rcases h with (hp | hs) | hr
      · exact .inr ⟨p, List.mem_cons_self, hp⟩
      · exact .inl hs
      · rcases ih hr with hs | ⟨x, hx, hc⟩
        · exact .inl hs
        · exact .inr ⟨x, List.mem_cons_of_mem _ hx, hc⟩

end Text
end ChangeImpact
