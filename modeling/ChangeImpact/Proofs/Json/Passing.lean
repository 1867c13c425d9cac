/-
Values are passed over as a whole.

`Passed s r` says that passing over the value at the beginning of `s` leads to `r`,
whatever brackets are open around it.  Every value of the grammar is passed over to
its end: by induction on the value, and for the items of a bracket by induction on
what follows them.  A number has no end of its own, so the text behind a value must
be `Delimited`.
-/
import ChangeImpact.Json.Skim
import ChangeImpact.Proofs.Json.Completeness
import ChangeImpact.Proofs.Json.Values

namespace ChangeImpact
namespace Json

/-! ## Numbers -/

theorem skipDigits_append {ds s : List Char} (hds : ∀ c ∈ ds, c.isDigit = true)
    (hs : Number.startsWithDigit s = false) : Number.skipDigits (ds ++ s) = s := by
  induction ds with
  | nil =>
    cases s with
    | nil => rfl
    | cons c s =>
      have hc : c.isDigit = false := hs
      simp [Number.skipDigits, hc]
  | cons c ds ih =>
    have hc := hds c List.mem_cons_self
    rw [List.cons_append, Number.skipDigits, List.dropWhile_cons_of_pos hc]
    exact ih fun d hd => hds d (List.mem_cons_of_mem c hd)

theorem Delimited.startsWithDigit {s : List Char} (h : Delimited s) :
    Number.startsWithDigit s = false := by
  cases s with
  | nil => rfl
  | cons c s => exact (h c s rfl).1

theorem Digits.startsWithDigit_append {ds : List Char} (h : Digits ds) (s : List Char) :
    Number.startsWithDigit (ds ++ s) = true := by
  obtain ⟨hne, hds⟩ := h
  cases ds with
  | nil => exact absurd rfl hne
  | cons c ds => exact hds c List.mem_cons_self

theorem Exponent.startsWithDigit_append {e : List Char} (h : Exponent e) {r : List Char}
    (hr : Delimited r) : Number.startsWithDigit (e ++ r) = false := by
  rcases h with rfl | ⟨c, _, _, rfl | rfl, -, -, rfl⟩
  · exact hr.startsWithDigit
  · rfl
  · rfl

theorem Fraction.startsWithDigit_append {f e : List Char} (h : Fraction f) (he : Exponent e)
    {r : List Char} (hr : Delimited r) : Number.startsWithDigit (f ++ (e ++ r)) = false := by
  rcases h with rfl | ⟨_, -, rfl⟩
  · exact he.startsWithDigit_append hr
  · rfl

theorem exponentSign_append {sign ds : List Char}
    (hsign : sign = [] ∨ sign = ['+'] ∨ sign = ['-']) (hds : Digits ds) (r : List Char) :
    (Number.exponentSign (sign ++ (ds ++ r))).2 = ds ++ r := by
  rcases hsign with rfl | rfl | rfl
  · obtain ⟨hne, hall⟩ := hds
    cases ds with
    | nil => exact absurd rfl hne
    | cons c ds =>
      have hc := hall c List.mem_cons_self
      rw [List.nil_append, List.cons_append, Number.exponentSign]
      · intro t ht
        rw [(List.cons.inj ht).1] at hc
        exact absurd hc (by decide)
      · intro t ht
        rw [(List.cons.inj ht).1] at hc
        exact absurd hc (by decide)
  · rfl
  · rfl

theorem passExponent?_complete {e : List Char} (h : Exponent e) {r : List Char}
    (hr : Delimited r) : passExponent? (e ++ r) = .ok r := by
  rcases h with rfl | ⟨c, sign, ds, hc, hsign, hds, rfl⟩
  · cases r with
    | nil => rfl
    | cons c r =>
      obtain ⟨-, -, he, hE⟩ := hr c r rfl
      simp [passExponent?, he, hE]
  · have hpass : passExponent (sign ++ (ds ++ r)) = .ok r := by
      simp only [passExponent, exponentSign_append hsign hds, hds.startsWithDigit_append,
        if_true, skipDigits_append hds.2 hr.startsWithDigit]
    rw [List.cons_append, List.append_assoc, passExponent?, if_pos (by simpa using hc), hpass]

theorem passFraction?_complete {f e : List Char} (hf : Fraction f) (he : Exponent e)
    {r : List Char} (hr : Delimited r) : passFraction? (f ++ (e ++ r)) = .ok r := by
  have hexp := passExponent?_complete he hr
  rcases hf with rfl | ⟨ds, hds, rfl⟩
  · rw [List.nil_append]
    cases hs : e ++ r with
    | nil =>
      obtain ⟨-, rfl⟩ := List.append_eq_nil_iff.mp hs
      rfl
    | cons c s =>
      have hc : c ≠ '.' := by
        rcases he with rfl | ⟨d, _, _, hd, -, -, rfl⟩
        · exact (hr c s hs).2.1
        · obtain ⟨rfl, -⟩ := List.cons.inj hs
          rcases hd with rfl | rfl <;> decide
      rw [passFraction?, if_neg hc, ← hs, hexp]
  · rw [List.cons_append, passFraction?, if_pos rfl, hds.startsWithDigit_append, if_pos rfl,
      skipDigits_append hds.2 (he.startsWithDigit_append hr), hexp]

/-- What is passed over behind the sign of a number. -/
theorem passNumber_complete {n f e : List Char} (hn : Natural n) (hf : Fraction f)
    (he : Exponent e) {r : List Char} (hr : Delimited r) :
    passNumber (n ++ (f ++ (e ++ r))) = .ok r := by
  have hfollow := hf.startsWithDigit_append he hr
  have hfraction := passFraction?_complete hf he hr
  rcases hn with rfl | ⟨⟨hne, hds⟩, hzero⟩
  · show passNumber ('0' :: (f ++ (e ++ r))) = _
    rw [passNumber, if_pos rfl, hfollow, if_neg Bool.false_ne_true, hfraction]
  · cases n with
    | nil => exact absurd rfl hne
    | cons c n =>
      have hc : c ≠ '0' := fun h => hzero (congrArg some h)
      have htail : ∀ d ∈ n, d.isDigit = true := fun d hd => hds d (List.mem_cons_of_mem c hd)
      rw [List.cons_append, passNumber, if_neg hc, if_pos (hds c List.mem_cons_self),
        skipDigits_append htail hfollow, hfraction]

/-! ## Literals -/

theorem passEscape_short {e c : Char} (h : (e, c) ∈ shortEscapes) (r : List Char) :
    passEscape (e :: r) = .ok r := by
  obtain ⟨hu, he⟩ := shortEscape?_of_mem h
  simp only [passEscape, if_neg hu, he, Option.isSome_some, if_true]

theorem passEscape_unit {a b c d : Char} {n : Nat} (h : hexValues? a b c d = some n)
    (r : List Char) : passEscape ('u' :: a :: b :: c :: d :: r) = .ok r := by
  simp only [passEscape, if_true, readHex_complete h]

theorem passLiteral_of_passEscape {s r : List Char} (h : passEscape s = .ok r) :
    passLiteral ('\\' :: s) = passLiteral r := by
  rw [passLiteral, if_neg (by decide), if_pos rfl]
  split
  · next hfail =>
    rw [h] at hfail
    cases hfail
  · next t hok =>
    rw [h] at hok
    obtain rfl := Except.ok.inj hok
    rfl

theorem passLiteral_complete {t : List Char} (h : Inside t) (r : List Char) :
    passLiteral (t ++ '"' :: r) = .ok r := by
  induction h with
  | nil => rw [List.nil_append, passLiteral, if_pos rfl]
  | @plain c _ hquote hslash hc _ ih =>
    have hcontrol : ¬ isControl c = true := by
      rw [isControl, decide_eq_true_eq]
      exact Nat.not_lt.mpr hc
    rw [List.cons_append, passLiteral, if_neg hquote, if_neg hslash, if_neg hcontrol, ih]
  | @short _ _ t hm _ ih =>
    exact (passLiteral_of_passEscape (passEscape_short hm (t ++ '"' :: r))).trans ih
  | @unit _ _ _ _ _ t hn _ ih =>
    exact (passLiteral_of_passEscape (passEscape_unit hn (t ++ '"' :: r))).trans ih

/-! ## One step -/

theorem skim_closed (afterItem : Bool) (s : List Char) :
    skim (.inside afterItem) [] s = .ok s := by
  rw [skim]

theorem skim_value (opened : List Bracket) (s : List Char) :
    skim .value opened s =
      match skipBlank s with
      | [] => .error (.here .endInValue [])
      | c :: r =>
        if c = '[' then skim (.inside false) (.array :: opened) r
        else if c = '\x7b' then skim (.inside false) (.object :: opened) r
        else
          match passScalar (c :: r) with
          | .error f => .error f
          | .ok t => skim (.inside true) opened t := by
  conv_lhs => rw [skim]
  split
  · next hs => rw [hs]
  · next c r hs =>
    conv_rhs => rw [hs]
    dsimp only
    split
    · rfl
    · split
      · rfl
      · split <;> simp_all

theorem skim_array {s r : List Char} (h : skipBlank s = '[' :: r) (opened : List Bracket) :
    skim .value opened s = skim (.inside false) (.array :: opened) r := by
  simp only [skim_value, h, if_true]

theorem skim_object {s r : List Char} (h : skipBlank s = '\x7b' :: r) (opened : List Bracket) :
    skim .value opened s = skim (.inside false) (.object :: opened) r := by
  simp only [skim_value, h, if_neg (by decide : ¬ '\x7b' = '['), if_true]

theorem skim_scalar {s r t : List Char} {c : Char} (h : skipBlank s = c :: r) (harray : c ≠ '[')
    (hobject : c ≠ '\x7b') (hpass : passScalar (c :: r) = .ok t) (opened : List Bracket) :
    skim .value opened s = skim (.inside true) opened t := by
  simp only [skim_value, h, if_neg harray, if_neg hobject, hpass]

theorem skim_close {b : Bracket} {s r : List Char} (h : skipBlank s = b.closing :: r)
    (afterItem : Bool) (outer : List Bracket) :
    skim (.inside afterItem) (b :: outer) s = skim (.inside true) outer r := by
  rw [skim]
  split <;> simp_all

theorem skim_item {b : Bracket} {s r t : List Char} {c : Char} {afterItem : Bool}
    (h : skipBlank s = c :: r) (hclose : c ≠ b.closing) (hcomma : afterItem = true → c = ',')
    (hto : passToValue b (pastComma afterItem (c :: r)) = .ok t) (outer : List Bracket) :
    skim (.inside afterItem) (b :: outer) s = skim .value (b :: outer) t := by
  have hnot : ¬ (afterItem && c != ',') = true := by
    cases afterItem with
    | false => exact Bool.false_ne_true
    | true => simp [hcomma rfl]
  conv_lhs => rw [skim]
  split
  · simp_all
  · next d u hs =>
    obtain ⟨rfl, rfl⟩ := List.cons.inj (hs.symm.trans h)
    rw [if_neg hclose, if_neg hnot]
    split <;> simp_all

/-! ## Whole values -/

/-- Passing over the value that `s` begins with leads to `r`, whatever brackets are open. -/
def Passed (s r : List Char) : Prop :=
  ∀ opened, skim .value opened s = skim (.inside true) opened r

theorem Passed.passValue_eq {s r : List Char} (h : Passed s r) : passValue s = .ok r :=
  (h []).trans (skim_closed true r)

/-- What is open outside of a value does not matter while the value is passed over. -/
theorem skim_append {spot : Spot} {opened : List Bracket} {s r : List Char}
    (h : skim spot opened s = .ok r) (hspot : opened = [] → spot ≠ .inside false)
    (outer : List Bracket) : skim spot (opened ++ outer) s = skim (.inside true) outer r := by
  fun_induction skim spot opened s with
  | case1 => cases h
  | case2 opened s t hs _ ih => exact (skim_array hs _).trans (ih h (by simp))
  | case3 opened s t hs _ _ ih => exact (skim_object hs _).trans (ih h (by simp))
  | case4 => cases h
  | case5 opened s c t hs _ harray hobject u hpass _ ih =>
    exact (skim_scalar hs harray hobject hpass _).trans (ih h (by simp))
  | case6 s afterItem =>
    obtain rfl := Except.ok.inj h
    cases afterItem with
    | false => exact absurd rfl (hspot rfl)
    | true => rfl
  | case7 => cases h
  | case8 s afterItem b inner t hs _ ih => exact (skim_close hs _ _).trans (ih h (by simp))
  | case9 => cases h
  | case10 => cases h
  | case11 s afterItem b inner c t hs _ hclose hcomma u hto _ ih =>
    have hcomma : afterItem = true → c = ',' := by
      rintro rfl
      simpa using hcomma
    exact (skim_item hs hclose hcomma hto _).trans (ih h (by simp))

theorem passValue_eq_ok_iff {s r : List Char} : passValue s = .ok r ↔ Passed s r :=
  ⟨fun h => skim_append h (by simp), Passed.passValue_eq⟩

theorem passed_of_scalar {w t r : List Char} {c : Char} (hw : Blanks w) (hc : isBlank c = false)
    (harray : c ≠ '[') (hobject : c ≠ '\x7b') (hpass : passScalar (c :: t) = .ok r) :
    Passed (w ++ c :: t) r :=
  skim_scalar (hw.skipBlank_append_cons hc t) harray hobject hpass

theorem passed_word {w v r : List Char} {s : String} (hw : Blanks w)
    (h : s ∈ ["null", "true", "false"]) (hv : v = s.toList) : Passed (w ++ (v ++ r)) r := by
  simp only [List.mem_cons, List.not_mem_nil, or_false] at h
  rcases h with rfl | rfl | rfl
  · subst hv
    exact passed_of_scalar hw (by decide) (by decide) (by decide) (readWord_append _ r)
  · subst hv
    exact passed_of_scalar hw (by decide) (by decide) (by decide) (readWord_append _ r)
  · subst hv
    exact passed_of_scalar hw (by decide) (by decide) (by decide) (readWord_append _ r)

theorem Quoted.passed {w t : List Char} (h : Quoted t) (hw : Blanks w) (r : List Char) :
    Passed (w ++ (t ++ r)) r := by
  obtain ⟨body, hbody, rfl⟩ := h
  refine passed_of_scalar hw (by decide) (by decide) (by decide) ?_
  show passLiteral (body ++ ['"'] ++ r) = _
  rw [List.append_assoc]
  exact passLiteral_complete hbody r

theorem isDigit_ne {c : Char} (h : c.isDigit = true) {d : Char} (hd : d.isDigit = false) :
    c ≠ d := by
  rintro rfl
  rw [hd] at h
  cases h

/-- A digit begins a number and nothing else. -/
theorem passScalar_of_isDigit {c : Char} (h : c.isDigit = true) (s : List Char) :
    passScalar (c :: s) = passNumber (c :: s) := by
  have hne {d : Char} (hd : d.isDigit = false) : c ≠ d := isDigit_ne h hd
  rw [passScalar, if_neg (hne (d := 'n') (by decide)), if_neg (hne (d := 't') (by decide)),
    if_neg (hne (d := 'f') (by decide)), if_neg (hne (d := '"') (by decide)),
    if_neg (hne (d := '-') (by decide)), if_pos h]

theorem isBlank_of_isDigit {c : Char} (h : c.isDigit = true) : isBlank c = false := by
  rw [Bool.eq_false_iff, Ne, isBlank_eq_true_iff]
  rintro (rfl | rfl | rfl | rfl) <;> exact absurd h (by decide)

theorem Natural.exists_cons {n : List Char} (h : Natural n) :
    ∃ c m, n = c :: m ∧ c.isDigit = true := by
  rcases h with rfl | ⟨⟨hne, hds⟩, -⟩
  · exact ⟨'0', [], rfl, by decide⟩
  · cases n with
    | nil => exact absurd rfl hne
    | cons c m => exact ⟨c, m, rfl, hds c List.mem_cons_self⟩

theorem Numeral.passed {w t r : List Char} (h : Numeral t) (hw : Blanks w) (hr : Delimited r) :
    Passed (w ++ (t ++ r)) r := by
  obtain ⟨sign, n, f, e, hsign, hn, hf, he, rfl⟩ := h
  have hpass := passNumber_complete hn hf he hr
  have htext : sign ++ (n ++ (f ++ e)) ++ r = sign ++ (n ++ (f ++ (e ++ r))) := by
    simp only [List.append_assoc]
  rw [htext]
  rcases hsign with rfl | rfl
  · obtain ⟨c, m, rfl, hc⟩ := hn.exists_cons
    refine passed_of_scalar hw (isBlank_of_isDigit hc) (isDigit_ne hc (by decide))
      (isDigit_ne hc (by decide)) ?_
    rw [passScalar_of_isDigit hc]
    exact hpass
  · exact passed_of_scalar hw (by decide) (by decide) (by decide) hpass

/-! ## Items -/

/-- The text is an item of a bracket: it does not look like the end of the bracket, and
what follows it is reached from it. -/
structure Item (b : Bracket) (t : List Char) : Prop where
  opening : ∃ c u, t = c :: u ∧ isBlank c = false ∧ c ≠ b.closing
  passed : ∀ w r, Blanks w → Delimited r →
    ∃ s, passToValue b (w ++ (t ++ r)) = .ok s ∧ Passed s r

theorem Bracket.isBlank_closing (b : Bracket) : isBlank b.closing = false := by
  cases b <;> decide

theorem Bracket.closing_ne_comma (b : Bracket) : ',' ≠ b.closing := by
  cases b <;> decide

theorem Bracket.delimited_closing (b : Bracket) : b.closing.isDigit = false ∧
    b.closing ≠ '.' ∧ b.closing ≠ 'e' ∧ b.closing ≠ 'E' := by
  cases b <;> decide

section
variable {α : Type} {b : Bracket} {G : List Char → α → Prop}

theorem skim_rest {t : List Char} {as : List α} (h : Rest b.closing G t as)
    (hitem : ∀ a ∈ as, ∀ t, G t a → Item b t) (r : List Char) (outer : List Bracket) :
    skim (.inside true) (b :: outer) (t ++ r) = skim (.inside true) outer r := by
  induction h with
  | @close w hw =>
    rw [List.append_assoc]
    exact skim_close (hw.skipBlank_append_cons b.isBlank_closing r) true outer
  | @next v w t u a as hv hw ht hu ih =>
    have hfollow := hu.delimited_append b.delimited_closing r
    obtain ⟨s, hto, hpassed⟩ := (hitem a List.mem_cons_self t ht).passed w (u ++ r) hw hfollow
    have hcomma := hv.skipBlank_append_cons (by decide : isBlank ',' = false)
      (w ++ (t ++ (u ++ r)))
    have htrue : true = true → ',' = ',' := fun _ => rfl
    rw [later_append, skim_item hcomma b.closing_ne_comma htrue hto, hpassed]
    exact ih fun a' ha' => hitem a' (List.mem_cons_of_mem a ha')

theorem skim_bracketed {opening : Char} {t : List Char} {as : List α}
    (h : Bracketed opening b.closing G (opening :: t) as)
    (hitem : ∀ a ∈ as, ∀ t, G t a → Item b t) (r : List Char) (outer : List Bracket) :
    skim (.inside false) (b :: outer) (t ++ r) = skim (.inside true) outer r := by
  cases h with
  | @empty w hw =>
    rw [List.append_assoc]
    exact skim_close (hw.skipBlank_append_cons b.isBlank_closing r) false outer
  | @items w t u a as hw ht hu =>
    have hfollow := hu.delimited_append b.delimited_closing r
    have hfirst := hitem a List.mem_cons_self t ht
    obtain ⟨s, hto, hpassed⟩ := hfirst.passed [] (u ++ r) .nil hfollow
    obtain ⟨c, v, rfl, hblank, hclose⟩ := hfirst.opening
    have hskip := hw.skipBlank_append_cons hblank (v ++ (u ++ r))
    have hfalse : false = true → c = ',' := fun h => absurd h Bool.false_ne_true
    rw [first_append, List.cons_append, skim_item hskip hclose hfalse hto, hpassed]
    exact skim_rest hu (fun a' ha' => hitem a' (List.mem_cons_of_mem a ha')) r outer

end

theorem passed_array {w t r : List Char} {us : List (List Char)} (hw : Blanks w)
    (h : Sequence Eq t us) (hitem : ∀ u ∈ us, Item .array u) : Passed (w ++ (t ++ r)) r := by
  intro opened
  obtain ⟨s, rfl⟩ := h.exists_cons
  have hopen := hw.skipBlank_append_cons (by decide : isBlank '[' = false) (s ++ r)
  refine (skim_array hopen opened).trans (skim_bracketed (b := .array) h ?_ r opened)
  rintro u hu t rfl
  exact hitem t hu

theorem readColon_complete {v : List Char} (hv : Blanks v) (r : List Char) :
    readColon (v ++ ':' :: r) = .ok r := by
  simp only [readColon, hv.skipBlank_append_cons (by decide : isBlank ':' = false), if_true]

theorem passKey_complete {t : List Char} {m : List Char × List Char} (h : IsMember Eq t m)
    (hkey : Quoted m.1) {w : List Char} (hw : Blanks w) (r : List Char) :
    ∃ y, Blanks y ∧ passKey (w ++ (t ++ r)) = .ok (y ++ (m.2 ++ r)) := by
  obtain ⟨_, v, y, rfl, hv, hy, rfl⟩ := h
  obtain ⟨body, hbody, hm⟩ := hkey
  refine ⟨y, hy, ?_⟩
  have hquote := hw.skipBlank_append_cons (by decide : isBlank '"' = false)
    (body ++ '"' :: (v ++ ':' :: (y ++ (m.2 ++ r))))
  simp only [hm, List.cons_append, List.append_assoc, List.nil_append, passKey, hquote, if_true,
    passLiteral_complete hbody, readColon_complete hv]

theorem IsMember.item {t : List Char} {m : List Char × List Char} (h : IsMember Eq t m)
    (hkey : Quoted m.1)
    (hvalue : ∀ w r, Blanks w → Delimited r → Passed (w ++ (m.2 ++ r)) r) :
    Item .object t where
  opening := by
    obtain ⟨_, v, w, rfl, -, -, rfl⟩ := h
    obtain ⟨body, -, hm⟩ := hkey
    exact ⟨'"', _, by rw [hm]; rfl, by decide, by decide⟩
  passed w r hw hr := by
    obtain ⟨y, hy, hpass⟩ := passKey_complete h hkey hw r
    exact ⟨y ++ (m.2 ++ r), hpass, hvalue y r hy hr⟩

theorem passed_object {w t r : List Char} {ms : List (List Char × List Char)} (hw : Blanks w)
    (h : Bracketed '\x7b' '\x7d' (IsMember Eq) t ms)
    (hitem : ∀ m ∈ ms, ∀ t, IsMember Eq t m → Item .object t) : Passed (w ++ (t ++ r)) r := by
  intro opened
  obtain ⟨s, rfl⟩ := h.exists_cons
  have hopen := hw.skipBlank_append_cons (by decide : isBlank '\x7b' = false) (s ++ r)
  exact (skim_object hopen opened).trans (skim_bracketed (b := .object) h hitem r opened)

theorem Value.opening {t : List Char} (h : Value t) : Opening t := by
  cases h with
  | word hw =>
    simp only [List.mem_cons, List.not_mem_nil, or_false] at hw
    rcases hw with rfl | rfl | rfl <;> exact ⟨_, _, rfl, by decide, by decide⟩
  | number hn =>
    obtain ⟨sign, n, f, e, rfl | rfl, hn, -, -, rfl⟩ := hn
    · obtain ⟨c, m, rfl, hc⟩ := hn.exists_cons
      exact ⟨c, _, rfl, isBlank_of_isDigit hc, isDigit_ne hc (by decide)⟩
    · exact ⟨'-', _, rfl, by decide, by decide⟩
  | string hs =>
    obtain ⟨body, -, rfl⟩ := hs
    exact ⟨'"', _, rfl, by decide, by decide⟩
  | array ha _ =>
    obtain ⟨s, rfl⟩ := ha.exists_cons
    exact ⟨'[', s, rfl, by decide, by decide⟩
  | object ho _ _ =>
    obtain ⟨s, rfl⟩ := ho.exists_cons
    exact ⟨'\x7b', s, rfl, by decide, by decide⟩

/-- Every value is passed over to its end. -/
theorem Value.passed {t : List Char} (h : Value t) :
    ∀ w r, Blanks w → Delimited r → Passed (w ++ (t ++ r)) r := by
  induction h with
  | word hmem => exact fun w r hw _ => passed_word hw hmem rfl
  | number hn => exact fun w r hw hr => hn.passed hw hr
  | string hs => exact fun w r hw _ => hs.passed hw r
  -- inside brackets the text behind a value is delimited, whatever `r` is
  | array hseq hvalues ih =>
    exact fun w r hw _ => passed_array hw hseq fun u hu =>
      ⟨(hvalues u hu).opening, fun w' r' hw' hr' => ⟨_, rfl, ih u hu w' r' hw' hr'⟩⟩
  | object hobj hkeys _ ih =>
    exact fun w r hw _ => passed_object hw hobj fun m hm t ht => ht.item (hkeys m hm) (ih m hm)

end Json
end ChangeImpact
