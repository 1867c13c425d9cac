/-
What the readers accept is derived by the grammar.

`Decoder.Sound d G` says that `d` takes blanks and then a part that `G` derives for
the value it returns, and leaves the rest alone.  The property passes from the items
of an array to the array, and from a decoder to the whole text, so the last theorem
says what a text must look like to be read as a change set.
-/
import ChangeImpact.Proofs.Json.Grammar

namespace ChangeImpact
namespace Json

theorem exists_blanks_of_skipBlank {s t : List Char} (h : skipBlank s = t) :
    ∃ w, Blanks w ∧ s = w ++ t := by
  refine ⟨s.takeWhile isBlank, fun c hc => ?_, ?_⟩
  · exact isBlank_eq_true_iff.mp (List.all_eq_true.mp List.all_takeWhile c hc)
  · rw [← h]
    exact List.takeWhile_append_dropWhile.symm

/-! ## Literals -/

theorem readHex_sound {s r : List Char} {n : Nat} (h : readHex s = .ok (n, r)) :
    ∃ a b c d, hexValues? a b c d = some n ∧ s = a :: b :: c :: d :: r := by
  unfold readHex at h
  split at h
  · next a b c d t =>
    split at h
    · next m hm =>
      obtain ⟨rfl, rfl⟩ := Prod.mk.inj (Except.ok.inj h)
      exact ⟨a, b, c, d, hm, rfl⟩
    · cases h
  · split at h <;> cases h

theorem readLow_sound {high : Nat} {s r : List Char} {x : Char}
    (h : readLow high s = .ok (x, r)) :
    ∃ a b c d low, hexValues? a b c d = some low ∧ isLowSurrogate low = true ∧
      x = pairChar high low ∧ s = '\\' :: 'u' :: a :: b :: c :: d :: r := by
  unfold readLow at h
  split at h
  · cases h
  · next c₁ t₁ =>
    split at h
    · cases h
    · next hc₁ =>
      split at h
      · cases h
      · next c₂ t₂ =>
        split at h
        · cases h
        · next hc₂ =>
          split at h
          · cases h
          · next low u hx =>
            split at h
            · next hlow =>
              obtain ⟨rfl, rfl⟩ := Prod.mk.inj (Except.ok.inj h)
              obtain ⟨a, b, c, d, hv, rfl⟩ := readHex_sound hx
              rw [Decidable.not_not] at hc₁ hc₂
              subst hc₁ hc₂
              exact ⟨a, b, c, d, low, hv, hlow, rfl, rfl⟩
            · cases h

theorem readUnicode_sound {s r : List Char} {x : Char} (h : readUnicode s = .ok (x, r)) :
    ∃ e, Escape ('u' :: e) x ∧ s = e ++ r := by
  unfold readUnicode at h
  split at h
  · cases h
  · next n t hx =>
    obtain ⟨a, b, c, d, hn, rfl⟩ := readHex_sound hx
    split at h
    · cases h
    · next hlow =>
      simp only [isLowSurrogate, Bool.and_eq_true, decide_eq_true_eq] at hlow
      split at h
      · next hhigh =>
        simp only [isHighSurrogate, Bool.and_eq_true, decide_eq_true_eq] at hhigh
        obtain ⟨e, f, g, k, low, hv, hl, hpair, rfl⟩ := readLow_sound h
        simp only [isLowSurrogate, Bool.and_eq_true, decide_eq_true_eq] at hl
        rw [hpair, pairChar]
        exact ⟨[a, b, c, d, '\\', 'u', e, f, g, k], .pair hn hhigh.1 hhigh.2 hv hl.1 hl.2, rfl⟩
      · next hhigh =>
        simp only [isHighSurrogate, Bool.and_eq_true, decide_eq_true_eq] at hhigh
        obtain ⟨rfl, rfl⟩ := Prod.mk.inj (Except.ok.inj h)
        exact ⟨[a, b, c, d], .unit hn (by omega), rfl⟩

theorem mem_shortEscapes_of_shortEscape? {e c : Char} (h : shortEscape? e = some c) :
    (e, c) ∈ shortEscapes := by
  unfold shortEscape? at h
  split at h <;> simp only [Option.some.injEq, reduceCtorEq] at h
  all_goals
    subst h
    simp [shortEscapes]

theorem readEscape_sound {s r : List Char} {x : Char} (h : readEscape s = .ok (x, r)) :
    ∃ e, Escape e x ∧ s = e ++ r := by
  unfold readEscape at h
  split at h
  · cases h
  · next c t =>
    split at h
    · next hc =>
      obtain ⟨e, he, rfl⟩ := readUnicode_sound h
      exact ⟨'u' :: e, he, by rw [hc]; rfl⟩
    · split at h
      · next d hd =>
        obtain ⟨rfl, rfl⟩ := Prod.mk.inj (Except.ok.inj h)
        exact ⟨[c], .short (mem_shortEscapes_of_shortEscape? hd), rfl⟩
      · cases h

theorem readLiteral_sound {acc s l r : List Char} (h : readLiteral acc s = .ok (l, r)) :
    ∃ body u, Chars body u ∧ l = acc.reverse ++ u ∧ s = body ++ '"' :: r := by
  fun_induction readLiteral acc s with
  | case1 => cases h
  | case2 acc t =>
    obtain ⟨rfl, rfl⟩ := Prod.mk.inj (Except.ok.inj h)
    exact ⟨[], [], .nil, (List.append_nil _).symm, rfl⟩
  | case3 => cases h
  | case4 acc t d v hd _ _ ih =>
    obtain ⟨body, u, hb, rfl, rfl⟩ := ih h
    obtain ⟨e, he, rfl⟩ := readEscape_sound hd
    refine ⟨'\\' :: (e ++ body), d :: u, .escape he hb, ?_, ?_⟩
    · rw [List.reverse_cons, List.append_assoc, List.singleton_append]
    · rw [List.cons_append, List.append_assoc]
  | case5 => cases h
  | case6 acc c t hq hs hc ih =>
    obtain ⟨body, u, hb, rfl, rfl⟩ := ih h
    simp only [isControl, decide_eq_true_eq, Nat.not_lt] at hc
    refine ⟨c :: body, c :: u, .plain hq hs hc hb, ?_, rfl⟩
    rw [List.reverse_cons, List.append_assoc, List.singleton_append]

/-! ## Decoders -/

def Decoder.Sound {α : Type} (d : Decoder α) (G : List Char → α → Prop) : Prop :=
  ∀ s a r, d.run s = .ok (a, r) → ∃ w t, Blanks w ∧ G t a ∧ s = w ++ (t ++ r)

theorem sound_string : Decoder.string.Sound IsLiteral := by
  intro s a r h
  change readString s = .ok (a, r) at h
  unfold readString at h
  split at h
  · cases h
  · next c t hs =>
    obtain ⟨w, hw, rfl⟩ := exists_blanks_of_skipBlank hs
    split at h
    · next hc =>
      split at h
      · cases h
      · next l u hl =>
        obtain ⟨rfl, rfl⟩ := Prod.mk.inj (Except.ok.inj h)
        obtain ⟨body, v, hb, rfl, rfl⟩ := readLiteral_sound hl
        refine ⟨w, '"' :: (body ++ ['"']), hw, ⟨body, ?_, rfl⟩, ?_⟩
        · rw [String.toList_ofList]
          exact hb
        · rw [hc, List.cons_append, List.append_assoc, List.singleton_append]
    · cases h

theorem nextElement_close_sound {first : Bool} {s r : List Char}
    (h : nextElement first s = .ok (.close r)) : ∃ w, Blanks w ∧ s = w ++ ']' :: r := by
  unfold nextElement at h
  split at h
  · cases h
  · next c t hs =>
    split at h
    · next hc =>
      obtain ⟨w, hw, rfl⟩ := exists_blanks_of_skipBlank hs
      obtain rfl := Next.close.inj (Except.ok.inj h)
      exact ⟨w, hw, by rw [hc]⟩
    · split at h
      · cases h
      · split at h
        · split at h
          · cases h
          · split at h <;> cases h
        · cases h

theorem nextElement_first_sound {s r : List Char} (h : nextElement true s = .ok (.item r)) :
    ∃ w, Blanks w ∧ s = w ++ r := by
  unfold nextElement at h
  split at h
  · cases h
  · next c t hs =>
    split at h
    · cases h
    · obtain rfl := Next.item.inj (Except.ok.inj h)
      exact exists_blanks_of_skipBlank hs

theorem nextElement_later_sound {s r : List Char} (h : nextElement false s = .ok (.item r)) :
    ∃ v w, Blanks v ∧ Blanks w ∧ s = v ++ ',' :: (w ++ r) := by
  unfold nextElement at h
  split at h
  · cases h
  · next c t hs =>
    split at h
    · cases h
    · split at h
      · next hf => cases hf
      · split at h
        · next hc =>
          split at h
          · cases h
          · next d u ht =>
            split at h
            · cases h
            · obtain rfl := Next.item.inj (Except.ok.inj h)
              obtain ⟨v, hv, rfl⟩ := exists_blanks_of_skipBlank hs
              obtain ⟨w, hw, rfl⟩ := exists_blanks_of_skipBlank ht
              exact ⟨v, w, hv, hw, by rw [hc]⟩
        · cases h

section
variable {α : Type} {item : Decoder α} {G : List Char → α → Prop}

/-- From an item on, the elements are followed by a comma or the end; at the opening
bracket an item may come at once. -/
theorem elements_sound (hd : item.Sound G) {first : Bool} {acc l : List α} {s r : List Char}
    (h : elements item first acc s = .ok (l, r)) :
    ∃ as t, l = acc.reverse ++ as ∧ s = t ++ r ∧
      (first = false → Rest ']' G t as) ∧ (first = true → Sequence G ('[' :: t) as) := by
  fun_induction elements item first acc s with
  | case1 => cases h
  | case2 first acc s t hn =>
    obtain ⟨rfl, rfl⟩ := Prod.mk.inj (Except.ok.inj h)
    obtain ⟨w, hw, rfl⟩ := nextElement_close_sound hn
    refine ⟨[], w ++ [']'], (List.append_nil _).symm, ?_, fun _ => .close hw, fun _ => .empty hw⟩
    rw [List.append_assoc, List.singleton_append]
  | case3 => cases h
  | case4 first acc s t hn a u hi _ ih =>
    obtain ⟨as, v, rfl, rfl, hrest, -⟩ := ih h
    obtain ⟨w, b, hw, hb, rfl⟩ := hd t a _ hi
    have hl : (a :: acc).reverse ++ as = acc.reverse ++ a :: as := by
      rw [List.reverse_cons, List.append_assoc, List.singleton_append]
    cases first with
    | true =>
      obtain ⟨x, hx, rfl⟩ := nextElement_first_sound hn
      refine ⟨a :: as, (x ++ w) ++ (b ++ v), hl, ?_, fun hf => (by cases hf), fun _ =>
        .items (hx.append hw) hb (hrest rfl)⟩
      simp only [List.append_assoc]
    | false =>
      obtain ⟨x, y, hx, hy, rfl⟩ := nextElement_later_sound hn
      refine ⟨a :: as, x ++ ',' :: ((y ++ w) ++ (b ++ v)), hl, ?_, fun _ =>
        .next hx (hy.append hw) hb (hrest rfl), fun hf => (by cases hf)⟩
      simp only [List.append_assoc, List.cons_append]

theorem sound_list (hd : item.Sound G) : (Decoder.list item).Sound (Sequence G) := by
  intro s l r h
  change readList item s = .ok (l, r) at h
  unfold readList at h
  split at h
  · cases h
  · next c t hs =>
    split at h
    · next hc =>
      obtain ⟨w, hw, rfl⟩ := exists_blanks_of_skipBlank hs
      obtain ⟨as, u, rfl, rfl, -, hseq⟩ := elements_sound hd h
      exact ⟨w, '[' :: u, hw, hseq rfl, by rw [hc]; rfl⟩
    · cases h

theorem exists_run_of_decode {text : String} {a : α} (h : item.decode text = .ok a) :
    ∃ w, item.run text.toList = .ok (a, w) ∧ Blanks w := by
  unfold Decoder.decode at h
  dsimp only at h
  split at h
  · cases h
  · next b r hr =>
    split at h
    · next hs =>
      obtain rfl := Except.ok.inj h
      obtain ⟨w, hw, rfl⟩ := exists_blanks_of_skipBlank hs
      rw [List.append_nil] at hr
      exact ⟨w, hr, hw⟩
    · cases h

theorem decode_sound (hd : item.Sound G) {text : String} {a : α}
    (h : item.decode text = .ok a) : Document G text.toList a := by
  obtain ⟨w, hrun, hw⟩ := exists_run_of_decode h
  obtain ⟨v, t, hv, ht, htext⟩ := hd _ _ _ hrun
  exact ⟨v, t, w, hv, ht, hw, htext⟩

end

/-- A text that is read as a change set is blank, or it is an array of string literals. -/
theorem changeSet_read_sound {text : String} {paths : ChangeSet}
    (h : ChangeSet.read text = .ok paths) :
    (Text.IsBlank text.toList ∧ paths = []) ∨
      Document (Sequence IsLiteral) text.toList paths := by
  unfold ChangeSet.read at h
  split at h
  · next hb =>
    obtain rfl := Except.ok.inj h
    exact .inl ⟨hb, rfl⟩
  · split at h
    · next l hl =>
      obtain rfl := Except.ok.inj h
      exact .inr (decode_sound (sound_list sound_string) hl)
    · cases h

end Json
end ChangeImpact
