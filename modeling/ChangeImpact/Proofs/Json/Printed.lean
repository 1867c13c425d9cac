/-
What is written is derived by the grammar.

A literal is written character by character, and each character is written as a
part that stands for it: as itself, behind a backslash, or by its number.
-/
import ChangeImpact.Json.Value
import ChangeImpact.Proofs.Json.Completeness

namespace ChangeImpact
namespace Json

theorem hexValues?_digitChars {n : Nat} (h : n < 0x20) :
    hexValues? '0' '0' (n / 16).digitChar (n % 16).digitChar = some n := by
  have hzero : Text.hexValue? '0' = some 0 := by decide
  simp only [hexValues?, hzero, Text.hexValue?_digitChar (by omega : n / 16 < 16),
    Text.hexValue?_digitChar (Nat.mod_lt n (by decide)), Option.bind_eq_bind, Option.bind_some,
    Option.pure_def]
  congr 1
  omega

/-- A control character without a letter of its own is written by its number. -/
theorem escape_control {c : Char} (h : isControl c = true) :
    Escape ['u', '0', '0', (c.toNat / 16).digitChar, (c.toNat % 16).digitChar] c := by
  have hlt : c.toNat < 0x20 := of_decide_eq_true h
  have hescape := Escape.unit (hexValues?_digitChars hlt) (.inl (by omega))
  rwa [Char.ofNat_toNat] at hescape

/-- Every character is written as a part of a literal that stands for it. -/
theorem chars_escaped_append (c : Char) {t s : List Char} (h : Chars t s) :
    Chars (escaped c ++ t) (c :: s) := by
  have hshort : ∀ {e : Char}, (e, c) ∈ shortEscapes → Chars (['\\', e] ++ t) (c :: s) :=
    fun hm => .escape (.short hm) h
  unfold escaped
  by_cases hquote : c = '"'
  · rw [if_pos hquote]
    exact hshort (by rw [hquote]; decide)
  rw [if_neg hquote]
  by_cases hslash : c = '\\'
  · rw [if_pos hslash]
    exact hshort (by rw [hslash]; decide)
  rw [if_neg hslash]
  by_cases hcontrol : isControl c = true
  · rw [if_pos hcontrol]
    split
    · next hc => exact hshort (by rw [hc]; decide)
    split
    · next hc => exact hshort (by rw [hc]; decide)
    split
    · next hc => exact hshort (by rw [hc]; decide)
    split
    · next hc => exact hshort (by rw [hc]; decide)
    split
    · next hc => exact hshort (by rw [hc]; decide)
    · exact .escape (escape_control hcontrol) h
  · rw [if_neg hcontrol]
    have hlow : 0x20 ≤ c.toNat := by
      rw [isControl, decide_eq_true_eq] at hcontrol
      exact Nat.not_lt.mp hcontrol
    exact .plain hquote hslash hlow h

theorem chars_flatMap_escaped (s : List Char) : Chars (s.flatMap escaped) s := by
  induction s with
  | nil => exact .nil
  | cons c s ih =>
    rw [List.flatMap_cons]
    exact chars_escaped_append c ih

theorem isLiteral_literal (s : String) : IsLiteral (literal s.toList) s :=
  ⟨s.toList.flatMap escaped, chars_flatMap_escaped s.toList, rfl⟩

theorem isLiteral_quote (s : String) : IsLiteral (quote s).toList s := by
  rw [quote, String.toList_ofList]
  exact isLiteral_literal s

end Json
end ChangeImpact
