/-
Objects that are read as records.

The members of an object are followed through the text in both directions: a walk
whose values are read gives the record (`reads_of_fills`), and a record that has been
read gives a walk (`exists_fills_of_hasRead`).

`IsRecord` is the grammar of a record: its own members in any order, some of which may
be left out, among any members with other keys.  `Faulty` objects lack a key or repeat
one.  The two main theorems say that the first are read as what they stand for and
that the second are not read at all.
-/
import ChangeImpact.Proofs.Json.Walk

namespace ChangeImpact
namespace Json
namespace Shape

variable {δ α : Type} {sh : Shape δ α}

/-! ## Texts -/

theorem nextMember_close {w : List Char} (hw : Blanks w) (first : Bool) (r : List Char) :
    nextMember first (w ++ '\x7d' :: r) = .ok (.close r) := by
  simp only [nextMember, hw.skipBlank_append_cons (by decide : isBlank '\x7d' = false), if_true]

theorem nextMember_first {w : List Char} (hw : Blanks w) (r : List Char) :
    nextMember true (w ++ '"' :: r) = .ok (.item r) := by
  simp only [nextMember, hw.skipBlank_append_cons (by decide : isBlank '"' = false),
    if_neg (by decide : ¬ '"' = '\x7d'), if_true]

theorem nextMember_later {v w : List Char} (hv : Blanks v) (hw : Blanks w) (r : List Char) :
    nextMember false (v ++ ',' :: (w ++ '"' :: r)) = .ok (.item r) := by
  simp only [nextMember, hv.skipBlank_append_cons (by decide : isBlank ',' = false),
    hw.skipBlank_append_cons (by decide : isBlank '"' = false),
    if_neg (by decide : ¬ ',' = '\x7d'), Bool.false_eq_true, if_false, if_true]

section
variable {first : Bool} {d d' : δ} {s t u r r' : List Char} {a : α}

theorem members_of_close (h : nextMember first s = .ok (.close r)) (hfin : sh.finish d = .ok a) :
    sh.members first d s = .ok (a, r) := by
  rw [members]
  split <;> simp_all

theorem finish_of_members (h : nextMember first s = .ok (.close r))
    (hm : sh.members first d s = .ok (a, r')) : sh.finish d = .ok a := by
  rw [members] at hm
  split at hm
  · cases hm
  · split at hm
    · next b hfin =>
      obtain ⟨rfl, -⟩ := Prod.mk.inj (Except.ok.inj hm)
      exact hfin
    · cases hm
  · next t hn =>
    rw [h] at hn
    cases hn

theorem members_eq_of_item (h : nextMember first s = .ok (.item t)) :
    sh.members first d s =
      match readLiteral [] t with
      | .error e => .error e
      | .ok (key, u) =>
        match sh.readMember (String.ofList key) d u with
        | .error e => .error e
        | .ok (d', r) => sh.members false d' r := by
  conv_lhs => rw [members]
  split
  · simp_all
  · simp_all
  · next v hn =>
    obtain rfl := Next.item.inj (Except.ok.inj (hn.symm.trans h))
    split
    · simp_all
    · next key w hk =>
      conv_rhs => rw [hk]
      dsimp only
      split <;> simp_all

theorem members_of_item {key : List Char} (h : nextMember first s = .ok (.item t))
    (hk : readLiteral [] t = .ok (key, u))
    (hm : sh.readMember (String.ofList key) d u = .ok (d', r)) :
    sh.members first d s = sh.members false d' r := by
  simp only [members_eq_of_item h, hk, hm]

theorem exists_of_members {key : List Char} (h : nextMember first s = .ok (.item t))
    (hk : readLiteral [] t = .ok (key, u)) (hm : sh.members first d s = .ok (a, r')) :
    ∃ d' r, sh.readMember (String.ofList key) d u = .ok (d', r) ∧
      sh.members false d' r = .ok (a, r') := by
  simp only [members_eq_of_item h, hk] at hm
  split at hm
  · cases hm
  · next d' r hread => exact ⟨d', r, hread, hm⟩

end

section
variable {d d' : δ} {m : String × List Char} {v w r r' : List Char}

theorem readMember_of_step (h : sh.Step Decoder.Reads d m d') (hv : Blanks v) (hw : Blanks w)
    (hr : Delimited r) : sh.readMember m.1 d (v ++ ':' :: (w ++ (m.2 ++ r))) = .ok (d', r) := by
  cases h with
  | ignore hkey hvalue =>
    simp only [readMember, hkey, readColon_complete hv, (hvalue.passed w r hw hr).passValue_eq]
  | store hf hunset hg =>
    simp only [readMember, hf, hunset, Bool.false_eq_true, if_false, readColon_complete hv,
      hg w r hw]

theorem Lawful.step_of_readMember (hl : sh.Lawful) (hvalue : Value m.2) (hv : Blanks v)
    (hw : Blanks w) (hr : Delimited r)
    (h : sh.readMember m.1 d (v ++ ':' :: (w ++ (m.2 ++ r))) = .ok (d', r')) :
    sh.Step Decoder.HasRead d m d' ∧ r' = r := by
  unfold readMember at h
  split at h
  · next hkey =>
    simp only [readColon_complete hv, (hvalue.passed w r hw hr).passValue_eq] at h
    obtain ⟨rfl, rfl⟩ := Prod.mk.inj (Except.ok.inj h)
    exact ⟨.ignore hkey hvalue, rfl⟩
  · next f hf =>
    split at h
    · cases h
    · next hunset =>
      simp only [readColon_complete hv] at h
      split at h
      · cases h
      · next g t hrun =>
        obtain ⟨rfl, rfl⟩ := Prod.mk.inj (Except.ok.inj h)
        exact ⟨.store hf (Bool.eq_false_iff.mpr hunset) ⟨w, r, _, hw, hrun⟩,
          (hl.passes f (mem_of_field? hf).1).rest_eq hw hvalue hr hrun⟩

end

theorem exists_key {t : List Char} {m : String × List Char} (h : IsMember IsLiteral t m)
    (r : List Char) :
    ∃ u v w, Blanks v ∧ Blanks w ∧ t ++ r = '"' :: u ∧
      readLiteral [] u = .ok (m.1.toList, v ++ ':' :: (w ++ (m.2 ++ r))) := by
  obtain ⟨k, v, w, ⟨body, hbody, rfl⟩, hv, hw, rfl⟩ := h
  refine ⟨body ++ '"' :: (v ++ ':' :: (w ++ (m.2 ++ r))), v, w, hv, hw, ?_,
    readLiteral_complete hbody [] _⟩
  simp only [List.append_assoc, List.cons_append, List.nil_append]

section
variable {first : Bool} {d d' : δ} {m : String × List Char} {s t r r' : List Char} {a : α}

/-- The member that comes next is read, and then the others. -/
theorem members_of_step (ht : IsMember IsLiteral t m) (hr : Delimited r)
    (hnext : ∀ u, t ++ r = '"' :: u → nextMember first s = .ok (.item u))
    (hstep : sh.Step Decoder.Reads d m d') :
    sh.members first d s = sh.members false d' r := by
  obtain ⟨u, v, w, hv, hw, htext, hkey⟩ := exists_key ht r
  refine members_of_item (hnext u htext) hkey ?_
  rw [String.ofList_toList]
  exact readMember_of_step hstep hv hw hr

theorem Lawful.exists_step_of_members (hl : sh.Lawful) (ht : IsMember IsLiteral t m)
    (hvalue : Value m.2) (hr : Delimited r)
    (hnext : ∀ u, t ++ r = '"' :: u → nextMember first s = .ok (.item u))
    (h : sh.members first d s = .ok (a, r')) :
    ∃ d', sh.Step Decoder.HasRead d m d' ∧ sh.members false d' r = .ok (a, r') := by
  obtain ⟨u, v, w, hv, hw, htext, hkey⟩ := exists_key ht r
  obtain ⟨d', r₁, hread, hrest⟩ := exists_of_members (hnext u htext) hkey h
  rw [String.ofList_toList] at hread
  obtain ⟨hstep, rfl⟩ := hl.step_of_readMember hvalue hv hw hr hread
  exact ⟨d', hstep, hrest⟩

end

section
variable {d d' : δ} {ms : List (String × List Char)} {t r r' : List Char} {a : α}

theorem delimited_of_rest {u : List Char} (h : Rest '\x7d' (IsMember IsLiteral) u ms)
    (r : List Char) : Delimited (u ++ r) :=
  h.delimited_append (by decide) r

theorem members_of_fills (h : Rest '\x7d' (IsMember IsLiteral) t ms)
    (hfills : sh.Fills Decoder.Reads d ms d') (hfin : sh.finish d' = .ok a) :
    sh.members false d (t ++ r) = .ok (a, r) := by
  induction h generalizing d with
  | @close w hw =>
    cases hfills
    rw [List.append_assoc]
    exact members_of_close (nextMember_close hw false r) hfin
  | @next v w t u m ms hv hw ht hu ih =>
    cases hfills with
    | cons hm hms =>
      rw [later_append, members_of_step ht (delimited_of_rest hu r) ?_ hm, ih hms]
      intro x hx
      rw [hx]
      exact nextMember_later hv hw x

theorem read_object {x : List Char} (hx : Blanks x) (s : List Char) :
    sh.read (x ++ '\x7b' :: s) = sh.members true sh.blank s := by
  simp only [read, hx.skipBlank_append_cons (by decide : isBlank '\x7b' = false), if_true]

/-- A walk through the members of an object is how the object is read. -/
theorem reads_of_fills (h : Object t ms) (hfills : sh.Fills Decoder.Reads sh.blank ms d')
    (hfin : sh.finish d' = .ok a) : sh.decoder.Reads t a := by
  intro x r hx
  show sh.read (x ++ (t ++ r)) = _
  cases h with
  | @empty w hw =>
    cases hfills
    rw [List.cons_append, read_object hx, List.append_assoc]
    exact members_of_close (nextMember_close hw true r) hfin
  | @items w t u m ms hw ht hu =>
    cases hfills with
    | cons hm hms =>
      rw [List.cons_append, read_object hx, first_append,
        members_of_step ht (delimited_of_rest hu r) ?_ hm, members_of_fills hu hms hfin]
      intro y hy
      rw [hy]
      exact nextMember_first hw y

theorem Lawful.exists_fills_of_members (hl : sh.Lawful) (h : Rest '\x7d' (IsMember IsLiteral) t ms)
    (hvalues : ∀ m ∈ ms, Value m.2) (hrun : sh.members false d (t ++ r) = .ok (a, r')) :
    ∃ d', sh.Fills Decoder.HasRead d ms d' ∧ sh.finish d' = .ok a := by
  induction h generalizing d with
  | @close w hw =>
    rw [List.append_assoc] at hrun
    exact ⟨d, .nil, finish_of_members (nextMember_close hw false r) hrun⟩
  | @next v w t u m ms hv hw ht hu ih =>
    rw [later_append] at hrun
    obtain ⟨d₁, hstep, hrest⟩ := hl.exists_step_of_members ht (hvalues m List.mem_cons_self)
      (delimited_of_rest hu r) (fun x hx => hx ▸ nextMember_later hv hw x) hrun
    obtain ⟨d', hfills, hfin⟩ := ih (fun n hn => hvalues n (List.mem_cons_of_mem m hn)) hrest
    exact ⟨d', .cons hstep hfills, hfin⟩

/-- A record that has been read from an object is the end of a walk through its members. -/
theorem Lawful.exists_fills_of_hasRead (hl : sh.Lawful) (h : ValidObject t ms)
    (hread : sh.decoder.HasRead t a) :
    ∃ d', sh.Fills Decoder.HasRead sh.blank ms d' ∧ sh.finish d' = .ok a := by
  obtain ⟨x, r, r', hx, hrun⟩ := hread
  change sh.read (x ++ (t ++ r)) = _ at hrun
  obtain ⟨hobj, hvalues⟩ := h
  cases hobj with
  | @empty w hw =>
    rw [List.cons_append, read_object hx, List.append_assoc] at hrun
    exact ⟨sh.blank, .nil, finish_of_members (nextMember_close hw true r) hrun⟩
  | @items w t u m ms hw ht hu =>
    rw [List.cons_append, read_object hx, first_append] at hrun
    obtain ⟨d₁, hstep, hrest⟩ := hl.exists_step_of_members ht (hvalues m List.mem_cons_self)
      (delimited_of_rest hu r) (fun x hx => hx ▸ nextMember_first hw x) hrun
    obtain ⟨d', hfills, hfin⟩ := hl.exists_fills_of_members hu
      (fun n hn => hvalues n (List.mem_cons_of_mem m hn)) hrest
    exact ⟨d', .cons hstep hfills, hfin⟩

end

end Shape

/-! ## Grammar of records -/

/-- What may be written for a field: its key, whether its member may be left out, and
the texts of its value. -/
structure FieldText where
  name : String
  optional : Bool
  IsText : List Char → Prop

/-- The members are written for the fields in their order. -/
inductive Covers : List FieldText → List (String × List Char) → Prop
  | nil : Covers [] []
  | leave {e : FieldText} {es : List FieldText} {ms : List (String × List Char)} :
      e.optional = true → Covers es ms → Covers (e :: es) ms
  | write {e : FieldText} {es : List FieldText} {v : List Char}
      {ms : List (String × List Char)} :
      e.IsText v → Covers es ms → Covers (e :: es) ((e.name, v) :: ms)

theorem Covers.exists_of_required {name : String} {G : List Char → Prop} {es : List FieldText}
    {ms : List (String × List Char)} (h : Covers (⟨name, false, G⟩ :: es) ms) :
    ∃ v ns, ms = (name, v) :: ns ∧ G v ∧ Covers es ns := by
  cases h with
  | leave hopt _ => cases hopt
  | write hv h => exact ⟨_, _, rfl, hv, h⟩

/-- An object with members for the fields, in any order, among members with keys of no
field and with any values. -/
def IsRecord (fields : List FieldText) (t : List Char) : Prop :=
  ∃ ms own extra, Object t ms ∧ ms.Perm (own ++ extra) ∧ Covers fields own ∧
    ∀ m ∈ extra, (∀ e ∈ fields, e.name ≠ m.1) ∧ Value m.2

theorem IsRecord.opening {fields : List FieldText} {t : List Char} (h : IsRecord fields t) :
    Opening t := by
  obtain ⟨ms, own, extra, hobj, -⟩ := h
  obtain ⟨s, rfl⟩ := hobj.exists_cons
  exact ⟨'\x7b', s, rfl, by decide, by decide⟩

/-- A required key does not occur, or a known key occurs twice. -/
def Faulty (required known : List String) (ms : List (String × List Char)) : Prop :=
  (∃ key ∈ required, key ∉ ms.map Prod.fst) ∨ ∃ key ∈ known, 2 ≤ (ms.map Prod.fst).count key

namespace Shape

variable {δ α : Type} {sh : Shape δ α}

theorem field?_eq_none {fields : List FieldText} {key : String}
    (hnames : sh.fields.map Field.name = fields.map FieldText.name)
    (h : ∀ e ∈ fields, e.name ≠ key) : sh.field? key = none := by
  refine List.find?_eq_none.mpr fun f hf hkey => ?_
  have hmem : f.name ∈ fields.map FieldText.name := by
    rw [← hnames]
    exact List.mem_map_of_mem hf
  obtain ⟨e, he, hname⟩ := List.mem_map.mp hmem
  exact h e he (hname.trans (beq_iff_eq.mp hkey))

/-- A record is read from every object with its members, whatever their order and
whatever other members there are. -/
theorem Lawful.reads_of_isRecord (hl : sh.Lawful) {fields : List FieldText}
    (hnames : sh.fields.map Field.name = fields.map FieldText.name) {a : α}
    (hown : ∀ own, Covers fields own →
      ∃ d, sh.Fills Decoder.Reads sh.blank own d ∧ sh.finish d = .ok a)
    {t : List Char} (h : IsRecord fields t) : sh.decoder.Reads t a := by
  obtain ⟨ms, own, extra, hobj, hperm, hcovers, hextra⟩ := h
  obtain ⟨d, hfills, hfin⟩ := hown own hcovers
  have hignored : sh.Fills Decoder.Reads d extra d :=
    fills_ignore d fun m hm => ⟨field?_eq_none hnames (hextra m hm).1, (hextra m hm).2⟩
  exact reads_of_fills hobj ((hfills.append hignored).perm hl hperm.symm) hfin

/-- An object without a required key or with a repeated one is not read. -/
theorem Lawful.not_hasRead_of_faulty (hl : sh.Lawful) {required known : List String}
    (hrequired : ∀ key ∈ required, ∃ f, sh.field? key = some f ∧
      ∀ d a, sh.finish d = .ok a → f.isSet d = true)
    (hknown : ∀ key ∈ known, (sh.field? key).isSome = true)
    {t : List Char} {ms : List (String × List Char)} (ht : ValidObject t ms)
    (hfault : Faulty required known ms) (a : α) : ¬ sh.decoder.HasRead t a := by
  intro hread
  obtain ⟨d, hfills, hfin⟩ := hl.exists_fills_of_hasRead ht hread
  rcases hfault with ⟨key, hkey, habsent⟩ | ⟨key, hkey, htwice⟩
  · obtain ⟨f, hf, hset⟩ := hrequired key hkey
    have hunset := hfills.isSet_of_not_mem hl hf habsent
    rw [hl.isSet_blank f (mem_of_field? hf).1, hset d a hfin] at hunset
    cases hunset
  · obtain ⟨f, hf⟩ := Option.isSome_iff_exists.mp (hknown key hkey)
    have honce := hfills.count_le_one hl hf
    omega

/-- A field whose value is not read spoils the whole object. -/
theorem Lawful.hasRead_field (hl : sh.Lawful) {t : List Char} {ms : List (String × List Char)}
    (ht : ValidObject t ms) {a : α} (hread : sh.decoder.HasRead t a)
    {m : String × List Char} (hm : m ∈ ms) {f : Field δ} (hf : sh.field? m.1 = some f) :
    ∃ g, f.value.HasRead m.2 g := by
  obtain ⟨d, hfills, -⟩ := hl.exists_fills_of_hasRead ht hread
  obtain ⟨d₁, d₂, hstep⟩ := hfills.exists_step hm
  cases hstep with
  | ignore hnone _ =>
    rw [hf] at hnone
    cases hnone
  | @store e g he _ hg =>
    obtain rfl := Option.some.inj (hf.symm.trans he)
    exact ⟨g, hg⟩

end Shape
end Json
end ChangeImpact
