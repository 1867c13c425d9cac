/-
What the grammar derives is read, and read as what it stands for.

`Decoder.Reads d t a` says that `d` reads the part `t` as `a` behind any blanks and
in front of any text, and leaves that text alone.  `Decoder.Complete d G` says this
of every part that `G` derives.  Together with soundness it says that a decoder
accepts exactly its grammar.

The property passes to arrays if their items are `Opening`: the first character of
an item is not a blank, which would be skipped, and not the closing bracket, which
would end the array.
-/
import ChangeImpact.Json.Choice
import ChangeImpact.Proofs.Json.Grammar

namespace ChangeImpact
namespace Json

/-! ## Blanks -/

theorem Blanks.nil : Blanks [] := fun _ hc => absurd hc List.not_mem_nil

theorem Blanks.isBlank {w : List Char} (h : Blanks w) : ∀ c ∈ w, isBlank c = true :=
  fun c hc => isBlank_eq_true_iff.mpr (h c hc)

theorem Blanks.skipBlank_eq_nil {w : List Char} (h : Blanks w) : skipBlank w = [] := by
  have hskip := skipBlank_append h.isBlank []
  rwa [List.append_nil] at hskip

theorem Blanks.skipBlank_append_cons {w : List Char} (h : Blanks w) {c : Char}
    (hc : Json.isBlank c = false) (s : List Char) : skipBlank (w ++ c :: s) = c :: s := by
  rw [skipBlank_append h.isBlank, skipBlank_of_not_blank hc]

/-! ## Literals -/

theorem readHex_complete {a b c d : Char} {n : Nat} (h : hexValues? a b c d = some n)
    (r : List Char) : readHex (a :: b :: c :: d :: r) = .ok (n, r) := by
  simp only [readHex, h]

theorem readLow_complete {a b c d : Char} {high low : Nat} (h : hexValues? a b c d = some low)
    (hlow : isLowSurrogate low = true) (r : List Char) :
    readLow high ('\\' :: 'u' :: a :: b :: c :: d :: r) = .ok (pairChar high low, r) := by
  simp only [readLow, ne_eq, not_true_eq_false, if_false, readHex_complete h, hlow, if_true]

theorem shortEscape?_of_mem {e c : Char} (h : (e, c) ∈ shortEscapes) :
    e ≠ 'u' ∧ shortEscape? e = some c := by
  simp only [shortEscapes, List.mem_cons, Prod.mk.injEq, List.not_mem_nil, or_false] at h
  rcases h with ⟨rfl, rfl⟩ | ⟨rfl, rfl⟩ | ⟨rfl, rfl⟩ | ⟨rfl, rfl⟩ | ⟨rfl, rfl⟩ | ⟨rfl, rfl⟩ |
    ⟨rfl, rfl⟩ | ⟨rfl, rfl⟩
  all_goals exact ⟨by decide, rfl⟩

theorem readEscape_complete {e : List Char} {c : Char} (h : Escape e c) (r : List Char) :
    readEscape (e ++ r) = .ok (c, r) := by
  cases h with
  | @short e c hm =>
    obtain ⟨hu, he⟩ := shortEscape?_of_mem hm
    show readEscape (e :: r) = _
    simp only [readEscape, if_neg hu, he]
  | @unit a b c d n hn hplain =>
    have hlow : isLowSurrogate n = false := by
      simp only [isLowSurrogate, Bool.and_eq_false_iff, decide_eq_false_iff_not]
      omega
    have hhigh : isHighSurrogate n = false := by
      simp only [isHighSurrogate, Bool.and_eq_false_iff, decide_eq_false_iff_not]
      omega
    show readEscape ('u' :: a :: b :: c :: d :: r) = _
    simp only [readEscape, if_true, readUnicode, readHex_complete hn, hlow, hhigh,
      Bool.false_eq_true, if_false]
  | @pair a b c d e f g k high low hhigh hh₁ hh₂ hlow hl₁ hl₂ =>
    have hnot : isLowSurrogate high = false := by
      simp only [isLowSurrogate, Bool.and_eq_false_iff, decide_eq_false_iff_not]
      omega
    have hfirst : isHighSurrogate high = true := by
      simp only [isHighSurrogate, Bool.and_eq_true, decide_eq_true_eq]
      exact ⟨hh₁, hh₂⟩
    have hsecond : isLowSurrogate low = true := by
      simp only [isLowSurrogate, Bool.and_eq_true, decide_eq_true_eq]
      exact ⟨hl₁, hl₂⟩
    show readEscape ('u' :: a :: b :: c :: d :: '\\' :: 'u' :: e :: f :: g :: k :: r) = _
    simp only [readEscape, if_true, readUnicode, readHex_complete hhigh, hnot, hfirst,
      Bool.false_eq_true, if_false, readLow_complete hlow hsecond]
    rfl

theorem readLiteral_complete {t u : List Char} (h : Chars t u) (acc r : List Char) :
    readLiteral acc (t ++ '"' :: r) = .ok (acc.reverse ++ u, r) := by
  induction h generalizing acc with
  | nil =>
    rw [List.nil_append, readLiteral, if_pos rfl, List.append_nil]
  | @plain c t u hquote hslash hc _ ih =>
    have hcontrol : isControl c = false := decide_eq_false (Nat.not_lt.mpr hc)
    rw [List.cons_append, readLiteral, if_neg hquote, if_neg hslash, hcontrol]
    simp only [Bool.false_eq_true, if_false]
    rw [ih, List.reverse_cons, List.append_assoc, List.singleton_append]
  | @escape e c t u he _ ih =>
    have hread := readEscape_complete he (t ++ '"' :: r)
    rw [List.cons_append, List.append_assoc, readLiteral, if_neg (by decide), if_pos rfl]
    split
    · next hfail =>
      rw [hread] at hfail
      cases hfail
    · next d v hok =>
      rw [hread] at hok
      obtain ⟨rfl, rfl⟩ := Prod.mk.inj (Except.ok.inj hok)
      rw [ih, List.reverse_cons, List.append_assoc, List.singleton_append]

/-! ## Decoders -/

section
variable {α β : Type}

/-- The decoder reads the part as `a`, wherever it stands. -/
def Decoder.Reads (d : Decoder α) (t : List Char) (a : α) : Prop :=
  ∀ w r, Blanks w → d.run (w ++ (t ++ r)) = .ok (a, r)

def Decoder.Complete (d : Decoder α) (G : List Char → α → Prop) : Prop :=
  ∀ t a, G t a → d.Reads t a

theorem Decoder.Reads.map {d : Decoder α} {t : List Char} {a : α} (h : d.Reads t a)
    (f : α → β) : (d.map f).Reads t (f a) := by
  intro w r hw
  simp only [Decoder.map, h w r hw]

theorem complete_string : Decoder.string.Complete IsLiteral := by
  intro t s ht w r hw
  obtain ⟨body, hbody, rfl⟩ := ht
  show readString (w ++ ('"' :: (body ++ ['"']) ++ r)) = _
  rw [List.cons_append, List.append_assoc, List.singleton_append]
  simp only [readString, hw.skipBlank_append_cons (by decide : isBlank '"' = false), if_true,
    readLiteral_complete hbody]
  rw [List.reverse_nil, List.nil_append, String.ofList_toList]

/-- A part that may be `null` in the place of a value. -/
inductive OrNull {α : Type} (G : List Char → α → Prop) : List Char → Option α → Prop
  | null : OrNull G "null".toList none
  | value {t : List Char} {a : α} : G t a → OrNull G t (some a)

theorem complete_string_orNull : Decoder.string.orNull.Complete (OrNull IsLiteral) := by
  intro t o ht w r hw
  cases ht with
  | null =>
    have hnull : readNull? (w ++ ("null".toList ++ r)) = some (.ok r) := by
      show readNull? (w ++ 'n' :: ("ull".toList ++ r)) = _
      simp only [readNull?, hw.skipBlank_append_cons (by decide : isBlank 'n' = false),
        readWord_append]
    simp only [Decoder.orNull, hnull]
  | @value t s hs =>
    have hliteral : readNull? (w ++ (t ++ r)) = none := by
      obtain ⟨body, -, rfl⟩ := hs
      simp only [readNull?, List.cons_append,
        hw.skipBlank_append_cons (by decide : isBlank '"' = false)]
      rfl
    simp only [Decoder.orNull, hliteral]
    exact (complete_string t s hs).map some w r hw

/-- A word of a choice is read from any spelling of its literal. -/
theorem Choice.reads_of_isLiteral {ch : Choice α} {t : List Char} {s : String} {a : α}
    (ht : IsLiteral t s) (hs : ch.ofWord? s = some a) : ch.decoder.Reads t a := by
  intro w r hw
  obtain ⟨body, hbody, rfl⟩ := ht
  show ch.read (w ++ ('"' :: (body ++ ['"']) ++ r)) = _
  rw [List.cons_append, List.append_assoc, List.singleton_append]
  simp only [read, hw.skipBlank_append_cons (by decide : isBlank '"' = false), if_true,
    readQuoted, readLiteral_complete hbody, List.reverse_nil, List.nil_append,
    String.ofList_toList, hs]

end

/-- A text that is taken for an item where an item or the end of an array may come. -/
def Opening (t : List Char) : Prop :=
  ∃ c u, t = c :: u ∧ isBlank c = false ∧ c ≠ ']'

theorem IsLiteral.opening {t : List Char} {s : String} (h : IsLiteral t s) : Opening t := by
  obtain ⟨body, -, rfl⟩ := h
  exact ⟨'"', _, rfl, by decide, by decide⟩

theorem nextElement_close {w : List Char} (hw : Blanks w) (first : Bool) (r : List Char) :
    nextElement first (w ++ ']' :: r) = .ok (.close r) := by
  simp only [nextElement, hw.skipBlank_append_cons (by decide : isBlank ']' = false), if_true]

theorem nextElement_first {w t : List Char} (hw : Blanks w) (ht : Opening t) (r : List Char) :
    nextElement true (w ++ (t ++ r)) = .ok (.item (t ++ r)) := by
  obtain ⟨c, u, rfl, hblank, hclose⟩ := ht
  simp only [nextElement, List.cons_append, hw.skipBlank_append_cons hblank, if_neg hclose,
    if_true]

theorem nextElement_later {v w t : List Char} (hv : Blanks v) (hw : Blanks w) (ht : Opening t)
    (r : List Char) :
    nextElement false (v ++ ',' :: (w ++ (t ++ r))) = .ok (.item (t ++ r)) := by
  obtain ⟨c, u, rfl, hblank, hclose⟩ := ht
  simp only [nextElement, List.cons_append,
    hv.skipBlank_append_cons (by decide : isBlank ',' = false), hw.skipBlank_append_cons hblank,
    if_neg hclose, if_true, Bool.false_eq_true, if_false,
    if_neg (by decide : ¬ ',' = ']')]

section
variable {α : Type} {item : Decoder α} {G : List Char → α → Prop}

theorem elements_of_close {first : Bool} {s r : List Char}
    (h : nextElement first s = .ok (.close r)) (acc : List α) :
    elements item first acc s = .ok (acc.reverse, r) := by
  rw [elements]
  split <;> simp_all

theorem elements_eq_of_item {first : Bool} {s t : List Char}
    (h : nextElement first s = .ok (.item t)) (acc : List α) :
    elements item first acc s =
      match item.run t with
      | .error e => .error e
      | .ok (a, r) => elements item false (a :: acc) r := by
  conv_lhs => rw [elements]
  split
  · simp_all
  · simp_all
  · next u hn =>
    obtain rfl := Next.item.inj (Except.ok.inj (hn.symm.trans h))
    split <;> simp_all

theorem elements_of_item {first : Bool} {s t r : List Char} {a : α}
    (h : nextElement first s = .ok (.item t)) (ha : item.run t = .ok (a, r)) (acc : List α) :
    elements item first acc s = elements item false (a :: acc) r := by
  rw [elements_eq_of_item h, ha]

theorem elements_rest_complete (hd : item.Complete G) (hG : ∀ t a, G t a → Opening t)
    {t : List Char} {as : List α} (h : Rest ']' G t as) (acc : List α) (r : List Char) :
    elements item false acc (t ++ r) = .ok (acc.reverse ++ as, r) := by
  induction h generalizing acc with
  | @close w hw =>
    rw [List.append_assoc, List.singleton_append, elements_of_close (nextElement_close hw _ _),
      List.append_nil]
  | @next v w t u a as hv hw ht _ ih =>
    have hrun : item.run (t ++ (u ++ r)) = .ok (a, u ++ r) := hd t a ht [] (u ++ r) .nil
    simp only [List.append_assoc, List.cons_append]
    rw [elements_of_item (nextElement_later hv hw (hG t a ht) (u ++ r)) hrun, ih,
      List.reverse_cons, List.append_assoc, List.singleton_append]

theorem complete_list (hd : item.Complete G) (hG : ∀ t a, G t a → Opening t) :
    (Decoder.list item).Complete (Sequence G) := by
  intro s l hs w r hw
  show readList item (w ++ (s ++ r)) = _
  have hopen : isBlank '[' = false := by decide
  cases hs with
  | @empty v hv =>
    simp only [List.cons_append, List.append_assoc, List.nil_append, readList,
      hw.skipBlank_append_cons hopen, if_true]
    rw [elements_of_close (nextElement_close hv _ _), List.reverse_nil]
  | @items v t u a as hv ht hu =>
    have hrun : item.run (t ++ (u ++ r)) = .ok (a, u ++ r) := hd t a ht [] (u ++ r) .nil
    simp only [List.cons_append, List.append_assoc, readList, hw.skipBlank_append_cons hopen,
      if_true]
    rw [elements_of_item (nextElement_first hv (hG t a ht) (u ++ r)) hrun,
      elements_rest_complete hd hG hu, List.reverse_singleton, List.singleton_append]

theorem decode_complete (hd : item.Complete G) {text : String} {a : α}
    (h : Document G text.toList a) : item.decode text = .ok a := by
  obtain ⟨v, t, w, hv, ht, hw, htext⟩ := h
  simp only [Decoder.decode, htext, hd t a ht v w hv, hw.skipBlank_eq_nil]

end

end Json
end ChangeImpact
