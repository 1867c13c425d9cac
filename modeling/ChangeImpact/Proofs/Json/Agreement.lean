/-
A decoder that succeeds takes exactly one value.

`Decoder.Passes d` says that whenever `d` reads a value, passing over that value
leads to the same place.  Where a value ends therefore does not depend on what it is
read as, and a text whose parts are known can be followed part by part although only
the outcome of a decoder is known.  `Decoder.HasRead` is what is then known of a part.
-/
import ChangeImpact.Json.Choice
import ChangeImpact.Json.Record
import ChangeImpact.Proofs.Json.Passing
import ChangeImpact.Proofs.Json.Soundness

namespace ChangeImpact
namespace Json

def Decoder.Passes {α : Type} (d : Decoder α) : Prop :=
  ∀ s a r, d.run s = .ok (a, r) → Passed s r

theorem skim_value_congr {s t : List Char} (h : skipBlank s = skipBlank t)
    (opened : List Bracket) : skim .value opened s = skim .value opened t := by
  rw [skim_value, skim_value, h]

theorem passLiteral_of_readLiteral {s l r : List Char} (h : readLiteral [] s = .ok (l, r)) :
    passLiteral s = .ok r := by
  obtain ⟨body, u, hbody, -, rfl⟩ := readLiteral_sound h
  exact passLiteral_complete hbody.inside r

theorem passed_of_passScalar {s t r : List Char} {c : Char} (hs : skipBlank s = c :: t)
    (harray : c ≠ '[') (hobject : c ≠ '\x7b') (h : passScalar (c :: t) = .ok r) : Passed s r :=
  skim_scalar hs harray hobject h

/-! ## Single values -/

theorem passes_string : Decoder.string.Passes := by
  intro s a r h
  obtain ⟨w, t, hw, ht, rfl⟩ := sound_string s a r h
  exact ht.quoted.passed hw r

section
variable {α β : Type}

theorem exists_of_run_map {f : α → β} {d : Decoder α} {s r : List Char} {b : β}
    (h : (d.map f).run s = .ok (b, r)) : ∃ a, d.run s = .ok (a, r) ∧ b = f a := by
  unfold Decoder.map at h
  dsimp only at h
  split at h
  · cases h
  · next a t hd =>
    obtain ⟨rfl, rfl⟩ := Prod.mk.inj (Except.ok.inj h)
    exact ⟨a, hd, rfl⟩

theorem Decoder.Passes.map {d : Decoder α} (hd : d.Passes) (f : α → β) : (d.map f).Passes := by
  intro s b r h
  obtain ⟨a, ha, -⟩ := exists_of_run_map h
  exact hd s a r ha

theorem passed_null {s t r : List Char} (hs : skipBlank s = 'n' :: t)
    (h : readWord "ull".toList t = .ok r) : Passed s r :=
  passed_of_passScalar hs (by decide) (by decide) h

theorem Decoder.Passes.orNull {d : Decoder α} (hd : d.Passes) : d.orNull.Passes := by
  intro s a r h
  unfold Decoder.orNull at h
  dsimp only at h
  split at h
  · next t hnull =>
    obtain ⟨-, rfl⟩ := Prod.mk.inj (Except.ok.inj h)
    unfold readNull? at hnull
    split at hnull
    · next u hs => exact passed_null hs (Option.some.inj hnull)
    · cases hnull
  · cases h
  · exact hd.map some s a r h

end

/-! ## Arrays -/

theorem skim_of_nextElement_close {first : Bool} {s r : List Char}
    (h : nextElement first s = .ok (.close r)) (afterItem : Bool) (outer : List Bracket) :
    skim (.inside afterItem) (.array :: outer) s = skim (.inside true) outer r := by
  obtain ⟨w, hw, rfl⟩ := nextElement_close_sound h
  exact skim_close (hw.skipBlank_append_cons (by decide : isBlank ']' = false) r) afterItem outer

theorem skim_of_nextElement_item {first : Bool} {s t : List Char}
    (h : nextElement first s = .ok (.item t)) (outer : List Bracket) :
    skim (.inside !first) (.array :: outer) s = skim .value (.array :: outer) t := by
  unfold nextElement at h
  split at h
  · cases h
  · next c r hs =>
    split at h
    · cases h
    · next hclose =>
      cases first with
      | true =>
        obtain rfl := Next.item.inj (Except.ok.inj h)
        exact skim_item (b := .array) hs hclose (fun h => absurd h Bool.false_ne_true) rfl outer
      | false =>
        rw [if_neg Bool.false_ne_true] at h
        split at h
        · next hc =>
          subst hc
          have hfirst := skim_item (b := .array) hs hclose (fun _ => rfl)
            (rfl : passToValue .array (pastComma true (',' :: r)) = .ok r) outer
          split at h
          · cases h
          · next d u hr =>
            split at h
            · cases h
            · obtain rfl := Next.item.inj (Except.ok.inj h)
              obtain ⟨w, hw, rfl⟩ := exists_blanks_of_skipBlank hr
              exact hfirst.trans (skim_value_congr (skipBlank_append hw.isBlank _) _)
        · cases h

theorem skim_of_elements {α : Type} {item : Decoder α} (hd : item.Passes) {first : Bool}
    {acc l : List α} {s r : List Char} (h : elements item first acc s = .ok (l, r))
    (outer : List Bracket) :
    skim (.inside !first) (.array :: outer) s = skim (.inside true) outer r := by
  fun_induction elements item first acc s with
  | case1 => cases h
  | case2 first acc s t hn =>
    obtain ⟨-, rfl⟩ := Prod.mk.inj (Except.ok.inj h)
    exact skim_of_nextElement_close hn _ outer
  | case3 => cases h
  | case4 first acc s t hn a u hi _ ih =>
    exact (skim_of_nextElement_item hn outer).trans ((hd t a u hi _).trans (ih h))

theorem Decoder.Passes.list {α : Type} {item : Decoder α} (hd : item.Passes) :
    (Decoder.list item).Passes := by
  intro s l r h opened
  change readList item s = .ok (l, r) at h
  unfold readList at h
  split at h
  · cases h
  · next c t hs =>
    split at h
    · next hc =>
      subst hc
      exact (skim_array hs opened).trans (skim_of_elements hd h opened)
    · cases h

/-! ## Objects -/

theorem nextMember_close_sound {first : Bool} {s r : List Char}
    (h : nextMember first s = .ok (.close r)) : ∃ w, Blanks w ∧ s = w ++ '\x7d' :: r := by
  unfold nextMember at h
  split at h
  · cases h
  · next c t hs =>
    split at h
    · next hc =>
      obtain ⟨w, hw, rfl⟩ := exists_blanks_of_skipBlank hs
      obtain rfl := Next.close.inj (Except.ok.inj h)
      exact ⟨w, hw, by rw [hc]⟩
    · repeat' split at h
      all_goals cases h

/-- The place behind a key and its colon is reached alike. -/
theorem skim_of_nextMember_item {first : Bool} {s t u v : List Char}
    (h : nextMember first s = .ok (.item t)) (hkey : passLiteral t = .ok u)
    (hcolon : readColon u = .ok v) (outer : List Bracket) :
    skim (.inside !first) (.object :: outer) s = skim .value (.object :: outer) v := by
  have hpass {r : List Char} (hr : skipBlank r = '"' :: t) : passKey r = .ok v := by
    simp only [passKey, hr, if_true, hkey, hcolon]
  unfold nextMember at h
  split at h
  · cases h
  · next c r hs =>
    split at h
    · cases h
    · next hclose =>
      cases first with
      | true =>
        rw [if_pos rfl] at h
        split at h
        · next hc =>
          obtain rfl := Next.item.inj (Except.ok.inj h)
          subst hc
          exact skim_item (b := .object) hs hclose (fun h => absurd h Bool.false_ne_true)
            (hpass (skipBlank_of_not_blank (by decide) r)) outer
        · cases h
      | false =>
        rw [if_neg Bool.false_ne_true] at h
        split at h
        · next hc =>
          subst hc
          split at h
          · cases h
          · next d w hr =>
            split at h
            · next hd =>
              obtain rfl := Next.item.inj (Except.ok.inj h)
              subst hd
              have hto : passToValue .object (pastComma true (',' :: r)) = .ok v := hpass hr
              exact skim_item (b := .object) hs hclose (fun _ => rfl) hto outer
            · split at h <;> cases h
        · cases h

namespace Shape

variable {δ α : Type} {sh : Shape δ α}

theorem exists_of_readMember (hf : ∀ f ∈ sh.fields, f.value.Passes) {key : String} {d d' : δ}
    {s r : List Char} (h : sh.readMember key d s = .ok (d', r)) :
    ∃ v, readColon s = .ok v ∧ Passed v r := by
  unfold readMember at h
  split at h
  · split at h
    · cases h
    · next v hv =>
      split at h
      · cases h
      · next t hpass =>
        obtain ⟨-, rfl⟩ := Prod.mk.inj (Except.ok.inj h)
        exact ⟨v, hv, passValue_eq_ok_iff.mp hpass⟩
  · next f hfield =>
    split at h
    · cases h
    · split at h
      · cases h
      · next v hv =>
        split at h
        · cases h
        · next g t hrun =>
          obtain ⟨-, rfl⟩ := Prod.mk.inj (Except.ok.inj h)
          exact ⟨v, hv, hf f (List.mem_of_find?_eq_some hfield) v g _ hrun⟩

theorem skim_of_members (hf : ∀ f ∈ sh.fields, f.value.Passes) {first : Bool} {d : δ}
    {s r : List Char} {a : α} (h : sh.members first d s = .ok (a, r)) (outer : List Bracket) :
    skim (.inside !first) (.object :: outer) s = skim (.inside true) outer r := by
  fun_induction members sh first d s with
  | case1 => cases h
  | case2 first d s t hn b hb =>
    obtain ⟨-, rfl⟩ := Prod.mk.inj (Except.ok.inj h)
    obtain ⟨w, hw, rfl⟩ := nextMember_close_sound hn
    exact skim_close (hw.skipBlank_append_cons (by decide : isBlank '\x7d' = false) t) _ outer
  | case3 => cases h
  | case4 => cases h
  | case5 => cases h
  | case6 first d s t hn key u hk d' v hm _ ih =>
    obtain ⟨x, hcolon, hpassed⟩ := exists_of_readMember hf hm
    have hitem := skim_of_nextMember_item hn (passLiteral_of_readLiteral hk) hcolon outer
    exact hitem.trans ((hpassed _).trans (ih h))

theorem closeArray_sound {s r : List Char} (h : closeArray s = .ok r) :
    ∃ w, Blanks w ∧ s = w ++ ']' :: r := by
  unfold closeArray at h
  split at h
  · cases h
  · next c t hs =>
    split at h
    · next hc =>
      obtain ⟨w, hw, rfl⟩ := exists_blanks_of_skipBlank hs
      obtain rfl := Except.ok.inj h
      exact ⟨w, hw, by rw [hc]⟩
    · repeat' split at h
      all_goals cases h

theorem skim_of_slots {fs : List (Field δ)} (hf : ∀ f ∈ fs, f.value.Passes) {first : Bool}
    {d : δ} {s r : List Char} {a : α} (h : sh.slots first d fs s = .ok (a, r))
    (outer : List Bracket) :
    skim (.inside !first) (.array :: outer) s = skim (.inside true) outer r := by
  induction fs generalizing first d s with
  | nil =>
    unfold slots at h
    split at h
    · cases h
    · next t hclose =>
      obtain ⟨w, hw, rfl⟩ := closeArray_sound hclose
      split at h
      · obtain ⟨-, rfl⟩ := Prod.mk.inj (Except.ok.inj h)
        exact skim_close (hw.skipBlank_append_cons (by decide : isBlank ']' = false) t) _ outer
      · cases h
  | cons f fs ih =>
    unfold slots at h
    split at h
    · cases h
    · next t hn =>
      split at h
      · obtain ⟨-, rfl⟩ := Prod.mk.inj (Except.ok.inj h)
        exact skim_of_nextElement_close hn _ outer
      · cases h
    · next t hn =>
      split at h
      · cases h
      · next g u hrun =>
        have hpassed := hf f List.mem_cons_self t g u hrun
        have hrest := ih (fun f' hf' => hf f' (List.mem_cons_of_mem f hf')) h
        exact (skim_of_nextElement_item hn outer).trans ((hpassed _).trans hrest)

theorem passes (hf : ∀ f ∈ sh.fields, f.value.Passes) : sh.decoder.Passes := by
  intro s a r h opened
  change sh.read s = .ok (a, r) at h
  unfold read at h
  split at h
  · cases h
  · next c t hs =>
    split at h
    · next hc =>
      subst hc
      exact (skim_object hs opened).trans (skim_of_members hf h opened)
    · split at h
      · next hc =>
        subst hc
        exact (skim_array hs opened).trans (skim_of_slots hf h opened)
      · cases h

end Shape

/-! ## Choices -/

namespace Choice

variable {α : Type} {ch : Choice α}

theorem passLiteral_of_readQuoted {s r : List Char} {a : α}
    (h : ch.readQuoted s = .ok (a, r)) : passLiteral s = .ok r := by
  unfold readQuoted at h
  split at h
  · cases h
  · next l t hl =>
    split at h
    · obtain ⟨-, rfl⟩ := Prod.mk.inj (Except.ok.inj h)
      exact passLiteral_of_readLiteral hl
    · cases h

theorem readKeyQuote_sound {s q : List Char} (h : readKeyQuote s = .ok q) :
    skipBlank s = '"' :: q := by
  unfold readKeyQuote at h
  split at h
  · cases h
  · next c t hs =>
    split at h
    · next hc =>
      obtain rfl := Except.ok.inj h
      rw [hs, hc]
    · split at h <;> cases h

theorem readClose_sound {s r : List Char} (h : readClose s = .ok r) :
    skipBlank s = '\x7d' :: r := by
  unfold readClose at h
  split at h
  · cases h
  · next c t hs =>
    split at h
    · next hc =>
      obtain rfl := Except.ok.inj h
      rw [hs, hc]
    · cases h

theorem passed_of_readUnit {s r : List Char} (h : readUnit s = .ok r) : Passed s r := by
  unfold readUnit at h
  split at h
  · cases h
  · next c t hs =>
    split at h
    · next hc =>
      subst hc
      exact passed_null hs h
    · cases h

theorem skim_of_readObject {s r : List Char} {a : α} (h : ch.readObject s = .ok (a, r))
    (outer : List Bracket) :
    skim (.inside false) (.object :: outer) s = skim (.inside true) outer r := by
  unfold readObject at h
  cases hq : readKeyQuote s with
  | error => simp [hq, bind, Except.bind] at h
  | ok q =>
    simp only [hq, bind, Except.bind] at h
    split at h
    · cases h
    · next p hw =>
      split at h
      · cases h
      · next t hcolon =>
        split at h
        · cases h
        · next u hunit =>
          split at h
          · cases h
          · next v hclose =>
            obtain ⟨-, rfl⟩ := Prod.mk.inj (Except.ok.inj h)
            have hkey : passLiteral q = .ok p.2 :=
              passLiteral_of_readQuoted (a := p.1) (r := p.2) hw
            have hto : passToValue .object (pastComma false ('"' :: q)) = .ok t := by
              simp only [passToValue, pastComma, passKey,
                skipBlank_of_not_blank (by decide : isBlank '"' = false), if_true, hkey, hcolon]
            have hfirst := skim_item (readKeyQuote_sound hq)
              (by decide : '"' ≠ Bracket.object.closing)
              (fun h => absurd h Bool.false_ne_true) hto outer
            exact hfirst.trans ((passed_of_readUnit hunit _).trans
              (skim_close (b := .object) (readClose_sound hclose) true outer))

theorem passes (ch : Choice α) : ch.decoder.Passes := by
  intro s a r h opened
  change ch.read s = .ok (a, r) at h
  unfold read at h
  split at h
  · cases h
  · next c t hs =>
    split at h
    · next hc =>
      subst hc
      exact skim_scalar hs (by decide) (by decide) (passLiteral_of_readQuoted h) opened
    · split at h
      · next hc =>
        subst hc
        exact (skim_object hs opened).trans (skim_of_readObject h opened)
      · cases h

end Choice

/-! ## Parts that have been read -/

section
variable {α β : Type}

/-- The decoder has read the part as `a` somewhere, whatever it left behind. -/
def Decoder.HasRead (d : Decoder α) (t : List Char) (a : α) : Prop :=
  ∃ w r r', Blanks w ∧ d.run (w ++ (t ++ r)) = .ok (a, r')

theorem Decoder.Reads.hasRead {d : Decoder α} {t : List Char} {a : α}
    (h : d.Reads t a) : d.HasRead t a :=
  ⟨[], [], [], .nil, h [] [] .nil⟩

/-- What a whole text is read as, the part between the blanks has been read as. -/
theorem Decoder.hasRead_of_decode {d : Decoder α} {G : List Char → β → Prop} {text : String}
    {b : β} (htext : Document G text.toList b) {a : α} (h : d.decode text = .ok a) :
    ∃ t, G t b ∧ d.HasRead t a := by
  obtain ⟨v, t, w, hv, ht, -, htext⟩ := htext
  obtain ⟨r, hrun, -⟩ := exists_run_of_decode h
  rw [htext] at hrun
  exact ⟨t, ht, v, w, r, hv, hrun⟩

theorem Decoder.HasRead.of_map {d : Decoder α} {f : α → β} {t : List Char} {b : β}
    (h : (d.map f).HasRead t b) : ∃ a, d.HasRead t a := by
  obtain ⟨w, r, r', hw, hrun⟩ := h
  obtain ⟨a, ha, -⟩ := exists_of_run_map hrun
  exact ⟨a, w, r, r', hw, ha⟩

/-- A value that has been read ends where the grammar ends it. -/
theorem Decoder.Passes.rest_eq {d : Decoder α} (hd : d.Passes) {w t r r' : List Char} {a : α}
    (hw : Blanks w) (ht : Value t) (hr : Delimited r) (h : d.run (w ++ (t ++ r)) = .ok (a, r')) :
    r' = r := by
  have hread := (hd _ a r' h).passValue_eq
  rw [(ht.passed w r hw hr).passValue_eq] at hread
  exact (Except.ok.inj hread).symm

theorem exists_of_elements {item : Decoder α} {first : Bool} {acc l : List α}
    {s t r' : List Char} (h : nextElement first s = .ok (.item t))
    (hl : elements item first acc s = .ok (l, r')) :
    ∃ a r, item.run t = .ok (a, r) ∧ elements item false (a :: acc) r = .ok (l, r') := by
  rw [elements_eq_of_item h] at hl
  split at hl
  · cases hl
  · next a r hrun => exact ⟨a, r, hrun, hl⟩

section
variable {item : Decoder α} (hd : item.Passes)
include hd

/-- The element that comes next has been read up to the end of its value. -/
theorem hasRead_of_elements {first : Bool} {acc l : List α} {s t r r' : List Char}
    (ht : Value t) (hr : Delimited r) (hnext : nextElement first s = .ok (.item (t ++ r)))
    (h : elements item first acc s = .ok (l, r')) :
    ∃ a, item.HasRead t a ∧ elements item false (a :: acc) r = .ok (l, r') := by
  obtain ⟨a, r₁, hrun, hrest⟩ := exists_of_elements hnext h
  obtain rfl := hd.rest_eq .nil ht hr hrun
  exact ⟨a, ⟨[], r₁, r₁, .nil, hrun⟩, hrest⟩

theorem hasRead_of_rest {t r r' : List Char} {us : List (List Char)} (h : Rest ']' Eq t us)
    (hvalues : ∀ u ∈ us, Value u) {acc l : List α}
    (hrun : elements item false acc (t ++ r) = .ok (l, r')) :
    ∀ u ∈ us, ∃ a, item.HasRead u a := by
  induction h generalizing acc with
  | close _ => exact fun u hu => absurd hu List.not_mem_nil
  | @next v w t s u us hv hw ht hs ih =>
    subst ht
    have hvalue := hvalues t List.mem_cons_self
    rw [later_append] at hrun
    obtain ⟨a, ha, hrest⟩ := hasRead_of_elements hd hvalue (hs.delimited_append (by decide) r)
      (nextElement_later hv hw hvalue.opening (s ++ r)) hrun
    exact List.forall_mem_cons.mpr
      ⟨⟨a, ha⟩, ih (fun u hu => hvalues u (List.mem_cons_of_mem t hu)) hrest⟩

/-- Each element of a list that has been read has been read. -/
theorem Decoder.HasRead.of_list {t : List Char} {us : List (List Char)} {l : List α}
    (h : ValidArray t us) (hread : (Decoder.list item).HasRead t l) :
    ∀ u ∈ us, ∃ a, item.HasRead u a := by
  obtain ⟨x, r, r', hx, hrun⟩ := hread
  obtain ⟨harray, hvalues⟩ := h
  have hopen (s : List Char) : readList item (x ++ '[' :: s) = elements item true [] s := by
    simp only [readList, hx.skipBlank_append_cons (by decide : isBlank '[' = false), if_true]
  change readList item (x ++ (t ++ r)) = _ at hrun
  cases harray with
  | empty _ => exact fun u hu => absurd hu List.not_mem_nil
  | @items w t s u us hw ht hs =>
    subst ht
    have hvalue := hvalues t List.mem_cons_self
    rw [List.cons_append, hopen, first_append] at hrun
    obtain ⟨a, ha, hrest⟩ := hasRead_of_elements hd hvalue (hs.delimited_append (by decide) r)
      (nextElement_first hw hvalue.opening (s ++ r)) hrun
    exact List.forall_mem_cons.mpr ⟨⟨a, ha⟩,
      hasRead_of_rest hd hs (fun u hu => hvalues u (List.mem_cons_of_mem t hu)) hrest⟩

end

end

end Json
end ChangeImpact
