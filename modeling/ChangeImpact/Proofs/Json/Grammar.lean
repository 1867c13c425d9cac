/-
The grammar of JSON texts.

Each relation ties a part of a text to what it stands for, and none mentions a
reader.  `Chars` is the inside of a string literal with the characters it decodes
to.  `Bracketed o k G` are items derived by `G` with commas between them, from the
opening bracket `o` to the closing one `k`, and `Rest k G` is what follows an item
of it.  With square brackets that is an array, `Sequence G`.
-/
import ChangeImpact.Input
import ChangeImpact.Proofs.Text.Lines

namespace ChangeImpact
namespace Json

/-- Spaces, tabs, line feeds and carriage returns, and nothing else. -/
def Blanks (w : List Char) : Prop :=
  ∀ c ∈ w, c = ' ' ∨ c = '\t' ∨ c = '\n' ∨ c = '\r'

/-- The letters that may follow a backslash, with the characters they stand for. -/
def shortEscapes : List (Char × Char) := [
  ('"', '"'), ('\\', '\\'), ('/', '/'), ('b', '\x08'), ('f', '\x0c'), ('n', '\n'), ('r', '\r'),
  ('t', '\t')]

/-- What follows a backslash, with the character it stands for.  A number in the range
of the surrogates stands for a character only together with a second one. -/
inductive Escape : List Char → Char → Prop
  | short {e c : Char} : (e, c) ∈ shortEscapes → Escape [e] c
  | unit {a b c d : Char} {n : Nat} :
      hexValues? a b c d = some n → n < 0xd800 ∨ 0xdfff < n →
      Escape ['u', a, b, c, d] (Char.ofNat n)
  | pair {a b c d e f g h : Char} {high low : Nat} :
      hexValues? a b c d = some high → 0xd800 ≤ high → high ≤ 0xdbff →
      hexValues? e f g h = some low → 0xdc00 ≤ low → low ≤ 0xdfff →
      Escape ['u', a, b, c, d, '\\', 'u', e, f, g, h]
        (Char.ofNat (0x10000 + (high - 0xd800) * 0x400 + (low - 0xdc00)))

/-- The inside of a literal, with the characters it stands for. -/
inductive Chars : List Char → List Char → Prop
  | nil : Chars [] []
  | plain {c : Char} {t s : List Char} :
      c ≠ '"' → c ≠ '\\' → 0x20 ≤ c.toNat → Chars t s → Chars (c :: t) (c :: s)
  | escape {e : List Char} {c : Char} {t s : List Char} :
      Escape e c → Chars t s → Chars ('\\' :: (e ++ t)) (c :: s)

/-- A string literal, with the string it stands for. -/
def IsLiteral (t : List Char) (s : String) : Prop :=
  ∃ body, Chars body s.toList ∧ t = '"' :: (body ++ ['"'])

/-- What follows an item, up to the closing bracket. -/
inductive Rest {α : Type} (closing : Char) (G : List Char → α → Prop) :
    List Char → List α → Prop
  | close {w : List Char} : Blanks w → Rest closing G (w ++ [closing]) []
  | next {v w t u : List Char} {a : α} {as : List α} :
      Blanks v → Blanks w → G t a → Rest closing G u as →
      Rest closing G (v ++ ',' :: (w ++ (t ++ u))) (a :: as)

/-- Brackets with the items between them. -/
inductive Bracketed {α : Type} (opening closing : Char) (G : List Char → α → Prop) :
    List Char → List α → Prop
  | empty {w : List Char} :
      Blanks w → Bracketed opening closing G (opening :: (w ++ [closing])) []
  | items {w t u : List Char} {a : α} {as : List α} :
      Blanks w → G t a → Rest closing G u as →
      Bracketed opening closing G (opening :: (w ++ (t ++ u))) (a :: as)

/-- An array with its items. -/
abbrev Sequence {α : Type} (G : List Char → α → Prop) : List Char → List α → Prop :=
  Bracketed '[' ']' G

/-- A whole text with blanks around what it stands for. -/
def Document {α : Type} (G : List Char → α → Prop) (s : List Char) (a : α) : Prop :=
  ∃ v t w, Blanks v ∧ G t a ∧ Blanks w ∧ s = v ++ (t ++ w)

theorem Blanks.append {v w : List Char} (hv : Blanks v) (hw : Blanks w) : Blanks (v ++ w) := by
  intro c hc
  rcases List.mem_append.mp hc with h | h
  · exact hv c h
  · exact hw c h

theorem Bracketed.exists_cons {α : Type} {opening closing : Char} {G : List Char → α → Prop}
    {t : List Char} {as : List α} (h : Bracketed opening closing G t as) :
    ∃ s, t = opening :: s := by
  cases h with
  | empty _ => exact ⟨_, rfl⟩
  | items _ _ _ => exact ⟨_, rfl⟩

theorem isBlank_eq_true_iff {c : Char} :
    isBlank c = true ↔ c = ' ' ∨ c = '\t' ∨ c = '\n' ∨ c = '\r' := by
  simp only [isBlank, Bool.or_eq_true, decide_eq_true_eq, or_assoc]

/-! ## Line feeds -/

theorem feed_not_mem_of_hexValues? {a b c d : Char} {n : Nat} (h : hexValues? a b c d = some n) :
    '\n' ∉ [a, b, c, d] := by
  have hfeed : Text.hexValue? '\n' = none := by decide
  simp only [hexValues?, Option.bind_eq_bind, Option.bind_eq_some_iff] at h
  obtain ⟨_, ha, _, hb, _, hc, _, hd, -⟩ := h
  intro hm
  simp only [List.mem_cons, List.not_mem_nil, or_false] at hm
  rcases hm with rfl | rfl | rfl | rfl
  · simp [hfeed] at ha
  · simp [hfeed] at hb
  · simp [hfeed] at hc
  · simp [hfeed] at hd

theorem Escape.feed_not_mem {e : List Char} {c : Char} (h : Escape e c) : '\n' ∉ e := by
  cases h with
  | @short e _ hm =>
    intro hf
    rw [List.mem_singleton] at hf
    subst hf
    revert hm
    simp [shortEscapes]
  | unit hn _ =>
    have := feed_not_mem_of_hexValues? hn
    simpa using this
  | pair hhigh _ _ hlow _ _ =>
    have := feed_not_mem_of_hexValues? hhigh
    have := feed_not_mem_of_hexValues? hlow
    simp_all

/-- A line feed inside a literal is always escaped. -/
theorem Chars.feed_not_mem {t s : List Char} (h : Chars t s) : '\n' ∉ t := by
  induction h with
  | nil => exact List.not_mem_nil
  | plain _ _ hc _ ih =>
    rw [List.mem_cons]
    intro hf
    rcases hf with rfl | hf
    · exact absurd hc (by decide)
    · exact ih hf
  | escape he _ ih =>
    rw [List.mem_cons, List.mem_append]
    intro hf
    rcases hf with hf | hf | hf
    · exact absurd hf (by decide)
    · exact he.feed_not_mem hf
    · exact ih hf

/-! ## Lines

A line of an array begins between its items or with one of them.  Colons stand
inside literals only, and a literal is never broken over two lines. -/

section

open Text (NoLineOpens)

theorem Blanks.noLineOpens_colon {w : List Char} (h : Blanks w) : NoLineOpens ':' w := by
  refine .of_not_mem fun hm => ?_
  rcases h ':' hm with hc | hc | hc | hc <;> exact absurd hc (by decide)

theorem noLineOpens_colon_singleton {c : Char} (h : c ≠ ':') : NoLineOpens ':' [c] :=
  .of_not_mem fun hm => h (List.mem_singleton.mp hm).symm

theorem IsLiteral.noLineOpens_colon {t : List Char} {s : String} (h : IsLiteral t s) :
    NoLineOpens ':' t := by
  obtain ⟨body, hbody, rfl⟩ := h
  refine .of_line ?_ ?_
  · rw [List.mem_cons, List.mem_append, List.mem_singleton]
    intro hm
    rcases hm with hm | hm | hm
    · exact absurd hm (by decide)
    · exact hbody.feed_not_mem hm
    · exact absurd hm (by decide)
  · rw [List.head?_cons]
    decide

variable {α : Type} {G : List Char → α → Prop}

theorem Rest.noLineOpens_colon (hG : ∀ t a, G t a → NoLineOpens ':' t) {s : List Char}
    {as : List α} (h : Rest ']' G s as) : NoLineOpens ':' s := by
  induction h with
  | close hw =>
    exact hw.noLineOpens_colon.append (noLineOpens_colon_singleton (by decide))
  | @next v w t u a as hv hw ht _ ih =>
    have hcomma : NoLineOpens ':' [','] := noLineOpens_colon_singleton (by decide)
    have hitem := hw.noLineOpens_colon.append ((hG t a ht).append ih)
    exact hv.noLineOpens_colon.append (hcomma.append hitem)

theorem Sequence.noLineOpens_colon (hG : ∀ t a, G t a → NoLineOpens ':' t) {s : List Char}
    {as : List α} (h : Sequence G s as) : NoLineOpens ':' s := by
  have hopen : NoLineOpens ':' ['['] := noLineOpens_colon_singleton (by decide)
  cases h with
  | empty hw =>
    have hclose : NoLineOpens ':' [']'] := noLineOpens_colon_singleton (by decide)
    exact hopen.append (hw.noLineOpens_colon.append hclose)
  | @items w t u a as hw ht hu =>
    have hitem := (hG t a ht).append (hu.noLineOpens_colon hG)
    exact hopen.append (hw.noLineOpens_colon.append hitem)

theorem Document.noLineOpens_colon (hG : ∀ t a, G t a → NoLineOpens ':' t) {s : List Char}
    {a : α} (h : Document G s a) : NoLineOpens ':' s := by
  obtain ⟨v, t, w, hv, ht, hw, rfl⟩ := h
  exact hv.noLineOpens_colon.append ((hG t a ht).append hw.noLineOpens_colon)

end

end Json
end ChangeImpact
