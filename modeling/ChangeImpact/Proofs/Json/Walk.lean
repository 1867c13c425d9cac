/-
The walk of a draft through the members of an object.

Reading the members of an object changes a draft member by member: one with an
unknown key leaves it alone, one with a known key stores its value in a field that is
not set.  `Fills` is that walk without the text around the members.

Different fields do not touch each other, so a walk may take its members in any
order.  A field that is set stays set, so no key occurs twice on a walk, and one whose
key does not occur stays unset.
-/
import Mathlib.Data.List.Pairwise
import ChangeImpact.Proofs.Json.Agreement

namespace ChangeImpact
namespace Json

/-! ## Fields -/

namespace Field

variable {β γ δ : Type}

/-- Some value of the field changes a draft by `g`. -/
def Stores (f : Field δ) (g : δ → δ) : Prop :=
  ∃ s r, f.value.run s = .ok (g, r)

/-- Two fields that do not touch each other. -/
structure Apart (f e : Field δ) : Prop where
  isSet_left : ∀ g, f.Stores g → ∀ d, e.isSet (g d) = e.isSet d
  isSet_right : ∀ k, e.Stores k → ∀ d, f.isSet (k d) = f.isSet d
  comm : ∀ g k, f.Stores g → e.Stores k → ∀ d, g (k d) = k (g d)

instance : Std.Symm (@Apart δ) where
  symm _ _ h := ⟨h.isSet_right, h.isSet_left, fun g k hg hk d => (h.comm k g hk hg d).symm⟩

theorem stores_of_hasRead {f : Field δ} {t : List Char} {g : δ → δ} (h : f.value.HasRead t g) :
    f.Stores g := by
  obtain ⟨w, r, r', -, hrun⟩ := h
  exact ⟨_, r', hrun⟩

theorem exists_of_stores_map {name : String} {d : Decoder β} {put : β → δ → δ}
    {isSet : δ → Bool} {g : δ → δ} (h : (⟨name, d.map put, isSet⟩ : Field δ).Stores g) :
    ∃ v, g = put v := by
  obtain ⟨s, r, hrun⟩ := h
  obtain ⟨v, -, hg⟩ := exists_of_run_map hrun
  exact ⟨v, hg⟩

theorem isSet_of_stores_map {name : String} {d : Decoder β} {put : β → δ → δ}
    {isSet : δ → Bool} (hput : ∀ v x, isSet (put v x) = true) (g : δ → δ)
    (hg : (⟨name, d.map put, isSet⟩ : Field δ).Stores g) (x : δ) : isSet (g x) = true := by
  obtain ⟨v, rfl⟩ := exists_of_stores_map hg
  exact hput v x

theorem apart_map {name name' : String} {d : Decoder β} {d' : Decoder γ} {put : β → δ → δ}
    {put' : γ → δ → δ} {isSet isSet' : δ → Bool}
    (hleft : ∀ v x, isSet' (put v x) = isSet' x) (hright : ∀ v x, isSet (put' v x) = isSet x)
    (hcomm : ∀ v u x, put v (put' u x) = put' u (put v x)) :
    Apart ⟨name, d.map put, isSet⟩ ⟨name', d'.map put', isSet'⟩ where
  isSet_left g hg x := by
    obtain ⟨v, rfl⟩ := exists_of_stores_map hg
    exact hleft v x
  isSet_right k hk x := by
    obtain ⟨v, rfl⟩ := exists_of_stores_map hk
    exact hright v x
  comm g k hg hk x := by
    obtain ⟨v, rfl⟩ := exists_of_stores_map hg
    obtain ⟨u, rfl⟩ := exists_of_stores_map hk
    exact hcomm v u x

end Field

namespace Shape

variable {δ α : Type}

/-! ## Walks -/

/-- One member changes the draft.  `V` says what it takes for a value to be read. -/
inductive Step (sh : Shape δ α) (V : Decoder (δ → δ) → List Char → (δ → δ) → Prop) :
    δ → String × List Char → δ → Prop
  | ignore {d : δ} {m : String × List Char} :
      sh.field? m.1 = none → Value m.2 → Step sh V d m d
  | store {d : δ} {m : String × List Char} {f : Field δ} {g : δ → δ} :
      sh.field? m.1 = some f → f.isSet d = false → V f.value m.2 g → Step sh V d m (g d)

/-- The members change the draft one after the other. -/
inductive Fills (sh : Shape δ α) (V : Decoder (δ → δ) → List Char → (δ → δ) → Prop) :
    δ → List (String × List Char) → δ → Prop
  | nil {d : δ} : Fills sh V d [] d
  | cons {d d' d'' : δ} {m : String × List Char} {ms : List (String × List Char)} :
      Step sh V d m d' → Fills sh V d' ms d'' → Fills sh V d (m :: ms) d''

/-- Fields of different names touch different parts of the draft. -/
structure Lawful (sh : Shape δ α) : Prop where
  passes : ∀ f ∈ sh.fields, f.value.Passes
  isSet_blank : ∀ f ∈ sh.fields, f.isSet sh.blank = false
  isSet_self : ∀ f ∈ sh.fields, ∀ g, f.Stores g → ∀ d, f.isSet (g d) = true
  apart : sh.fields.Pairwise Field.Apart

variable {sh : Shape δ α}

theorem mem_of_field? {key : String} {f : Field δ} (h : sh.field? key = some f) :
    f ∈ sh.fields ∧ f.name = key := by
  have hname := List.find?_some (p := fun e : Field δ => e.name == key) h
  exact ⟨List.mem_of_find?_eq_some h, beq_iff_eq.mp hname⟩

theorem Fills.append {V : Decoder (δ → δ) → List Char → (δ → δ) → Prop} {d d' d'' : δ}
    {ms ns : List (String × List Char)} (h : sh.Fills V d ms d') (h' : sh.Fills V d' ns d'') :
    sh.Fills V d (ms ++ ns) d'' := by
  induction h with
  | nil => exact h'
  | cons hm _ ih => exact .cons hm (ih h')

theorem fills_ignore {V : Decoder (δ → δ) → List Char → (δ → δ) → Prop} (d : δ)
    {ms : List (String × List Char)} (h : ∀ m ∈ ms, sh.field? m.1 = none ∧ Value m.2) :
    sh.Fills V d ms d := by
  induction ms with
  | nil => exact .nil
  | cons m ms ih =>
    obtain ⟨hkey, hvalue⟩ := h m List.mem_cons_self
    exact .cons (.ignore hkey hvalue) (ih fun m' hm' => h m' (List.mem_cons_of_mem m hm'))

theorem Lawful.apart_of_ne (hl : sh.Lawful) {f e : Field δ} (hf : f ∈ sh.fields)
    (he : e ∈ sh.fields) (hne : f.name ≠ e.name) : f.Apart e :=
  hl.apart.forall hf he fun h => hne (congrArg Field.name h)

/-! ## Order -/

/-- Two members may change places. -/
theorem Lawful.fills_swap (hl : sh.Lawful) {d d₁ d₂ : δ} {m n : String × List Char}
    (hm : sh.Step Decoder.Reads d m d₁) (hn : sh.Step Decoder.Reads d₁ n d₂) :
    ∃ d₃, sh.Step Decoder.Reads d n d₃ ∧ sh.Step Decoder.Reads d₃ m d₂ := by
  cases hm with
  | ignore hkey hvalue => exact ⟨d₂, hn, .ignore hkey hvalue⟩
  | @store f g hf hunset hg =>
    cases hn with
    | ignore hkey hvalue => exact ⟨d, .ignore hkey hvalue, .store hf hunset hg⟩
    | @store e k he hunset' hk =>
      obtain ⟨hfmem, hfname⟩ := mem_of_field? hf
      obtain ⟨hemem, hename⟩ := mem_of_field? he
      have hgs : f.Stores g := Field.stores_of_hasRead hg.hasRead
      have hks : e.Stores k := Field.stores_of_hasRead hk.hasRead
      by_cases hne : f.name = e.name
      · -- the first member has set the field, so the second could not have been stored
        have hsame : some f = some e := by rw [← hf, ← he, ← hfname, ← hename, hne]
        rw [← Option.some.inj hsame, hl.isSet_self f hfmem g hgs] at hunset'
        cases hunset'
      · have hapart := hl.apart_of_ne hfmem hemem hne
        rw [hapart.isSet_left g hgs] at hunset'
        refine ⟨k d, .store he hunset' hk, ?_⟩
        rw [← hapart.comm g k hgs hks]
        exact .store hf ((hapart.isSet_right k hks d).trans hunset) hg

theorem Fills.perm (hl : sh.Lawful) {ms ns : List (String × List Char)} (hp : ms.Perm ns)
    {d d' : δ} (h : sh.Fills Decoder.Reads d ms d') : sh.Fills Decoder.Reads d ns d' := by
  induction hp generalizing d with
  | nil => exact h
  | cons m _ ih =>
    cases h with
    | cons hm hms => exact .cons hm (ih hms)
  | swap m n _ =>
    cases h with
    | cons hn h =>
      cases h with
      | cons hm hms =>
        obtain ⟨_, hm', hn'⟩ := hl.fills_swap hn hm
        exact .cons hm' (.cons hn' hms)
  | trans _ _ ih₁ ih₂ => exact ih₂ (ih₁ h)

/-! ## Keys -/

section
variable {d d' : δ} {m : String × List Char} {ms : List (String × List Char)} {key : String}
  {f : Field δ}

theorem Lawful.isSet_of_step (hl : sh.Lawful) (h : sh.Step Decoder.HasRead d m d')
    (hf : sh.field? key = some f) (hkey : m.1 ≠ key) : f.isSet d' = f.isSet d := by
  obtain ⟨hfmem, hfname⟩ := mem_of_field? hf
  cases h with
  | ignore _ _ => rfl
  | @store e g he _ hg =>
    obtain ⟨hemem, hename⟩ := mem_of_field? he
    have hne : e.name ≠ f.name := by
      rw [hename, hfname]
      exact hkey
    exact (hl.apart_of_ne hemem hfmem hne).isSet_left g (Field.stores_of_hasRead hg) d

/-- A known key stores its value, in a field that was not set before. -/
theorem Lawful.isSet_of_step_self (hl : sh.Lawful) (h : sh.Step Decoder.HasRead d m d')
    (hf : sh.field? m.1 = some f) : f.isSet d = false ∧ f.isSet d' = true := by
  cases h with
  | ignore hnone _ =>
    rw [hf] at hnone
    cases hnone
  | @store e g he hunset hg =>
    obtain rfl := Option.some.inj (hf.symm.trans he)
    exact ⟨hunset, hl.isSet_self f (mem_of_field? hf).1 g (Field.stores_of_hasRead hg) d⟩

theorem Fills.isSet_of_not_mem (hl : sh.Lawful) (h : sh.Fills Decoder.HasRead d ms d')
    (hf : sh.field? key = some f) (hkey : key ∉ ms.map Prod.fst) : f.isSet d' = f.isSet d := by
  induction h with
  | nil => rfl
  | @cons d d₁ d₂ m ms hm _ ih =>
    rw [List.map_cons, List.mem_cons, not_or] at hkey
    rw [ih hkey.2, hl.isSet_of_step hm hf (Ne.symm hkey.1)]

theorem Fills.not_mem_of_isSet (hl : sh.Lawful) (h : sh.Fills Decoder.HasRead d ms d')
    (hf : sh.field? key = some f) (hset : f.isSet d = true) : key ∉ ms.map Prod.fst := by
  induction h with
  | nil => exact List.not_mem_nil
  | @cons d d₁ d₂ m ms hm _ ih =>
    by_cases hkey : m.1 = key
    · subst hkey
      rw [(hl.isSet_of_step_self hm hf).1] at hset
      cases hset
    · rw [← hl.isSet_of_step hm hf hkey] at hset
      rw [List.map_cons, List.mem_cons, not_or]
      exact ⟨Ne.symm hkey, ih hset⟩

theorem Fills.count_le_one (hl : sh.Lawful) (h : sh.Fills Decoder.HasRead d ms d')
    (hf : sh.field? key = some f) : (ms.map Prod.fst).count key ≤ 1 := by
  induction h with
  | nil => exact Nat.zero_le 1
  | @cons d d₁ d₂ m ms hm hms ih =>
    rw [List.map_cons, List.count_cons]
    by_cases hkey : m.1 = key
    · subst hkey
      have hnone := hms.not_mem_of_isSet hl hf (hl.isSet_of_step_self hm hf).2
      rw [List.count_eq_zero.mpr hnone]
      split <;> omega
    · rw [if_neg (by simpa using hkey)]
      exact ih

theorem Fills.exists_step {V : Decoder (δ → δ) → List Char → (δ → δ) → Prop}
    (h : sh.Fills V d ms d') (hm : m ∈ ms) : ∃ d₁ d₂, sh.Step V d₁ m d₂ := by
  induction h with
  | nil => exact absurd hm List.not_mem_nil
  | @cons d d₁ d₂ n ms hn _ ih =>
    rcases List.mem_cons.mp hm with rfl | hm
    · exact ⟨d, d₁, hn⟩
    · exact ih hm

end

end Shape
end Json
end ChangeImpact
