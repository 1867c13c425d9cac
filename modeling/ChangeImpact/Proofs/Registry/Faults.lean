/-
Which fault the check of a registry's names reports.

The check goes through the names from the left and stops at the first that is empty or has
been there before.  `FaultIn` says without a walk which fault that is: the names before it
are in order, and with it they no longer are.  The walk carries the names that it has
passed, and its invariant is that they are in order.  Every list is in order or has one
fault, so the fault that is found is the only one that `FaultIn` admits.
-/
import Mathlib.Data.List.Induction
import Mathlib.Data.List.Nodup
import ChangeImpact.Registry

namespace ChangeImpact
namespace Registry

/-- Names of which none is empty and none comes twice. -/
structure InOrder (names : List String) : Prop where
  ne_empty : ∀ n ∈ names, n ≠ ""
  nodup : names.Nodup

/-- The name at the place `i` is empty, and those before it are in order. -/
structure EmptyAt (names : List String) (i : Nat) : Prop where
  name_eq : names[i]? = some ""
  before : InOrder (names.take i)

/-- The name at the place `j` stands before it as well, and those before it are in order. -/
structure RepeatsAt (names : List String) (name : String) (j : Nat) : Prop where
  name_eq : names[j]? = some name
  ne_empty : name ≠ ""
  earlier : name ∈ names.take j
  before : InOrder (names.take j)

/-- The fault is the first of the names. -/
def FaultIn (names : List String) : Fault → Prop
  | .emptyName i => EmptyAt names i
  | .duplicate name => ∃ j, RepeatsAt names name j

variable {names seen : List String} {n : String} {f : Fault}

theorem InOrder.concat (h : InOrder names) (hne : n ≠ "") (hnew : n ∉ names) :
    InOrder (names ++ [n]) where
  ne_empty := by
    intro m hm
    rcases List.mem_append.mp hm with hm | hm
    · exact h.ne_empty m hm
    · rw [List.mem_singleton.mp hm]
      exact hne
  nodup := by
    rw [← List.concat_eq_append]
    exact h.nodup.concat hnew

/-! ## Every list is in order or has a fault -/

theorem EmptyAt.append {i : Nat} (h : EmptyAt names i) (rest : List String) :
    EmptyAt (names ++ rest) i := by
  obtain ⟨hi, -⟩ := List.getElem?_eq_some_iff.mp h.name_eq
  refine ⟨by rw [List.getElem?_append_left hi]; exact h.name_eq, ?_⟩
  rw [List.take_append_of_le_length (Nat.le_of_lt hi)]
  exact h.before

theorem RepeatsAt.append {j : Nat} (h : RepeatsAt names n j) (rest : List String) :
    RepeatsAt (names ++ rest) n j := by
  obtain ⟨hj, -⟩ := List.getElem?_eq_some_iff.mp h.name_eq
  have htake : (names ++ rest).take j = names.take j :=
    List.take_append_of_le_length (Nat.le_of_lt hj)
  exact ⟨by rw [List.getElem?_append_left hj]; exact h.name_eq, h.ne_empty,
    by rw [htake]; exact h.earlier, by rw [htake]; exact h.before⟩

theorem FaultIn.append (h : FaultIn names f) (rest : List String) : FaultIn (names ++ rest) f := by
  cases f with
  | emptyName i => exact EmptyAt.append h rest
  | duplicate name =>
    obtain ⟨j, hj⟩ := h
    exact ⟨j, hj.append rest⟩

theorem inOrder_or_exists_faultIn (names : List String) : InOrder names ∨ ∃ f, FaultIn names f := by
  -- Seen from its end, a list has a fault already, or its last name is one, or there is none.
  induction names using List.reverseRecOn with
  | nil => exact .inl ⟨fun n hn => absurd hn List.not_mem_nil, List.nodup_nil⟩
  | append_singleton names n ih =>
    rcases ih with hnames | ⟨f, hf⟩
    · have hat : (names ++ [n])[names.length]? = some n := List.getElem?_concat_length
      have htake : (names ++ [n]).take names.length = names := List.take_left
      by_cases hempty : n = ""
      · exact .inr ⟨.emptyName names.length, by rw [hat, hempty], by rw [htake]; exact hnames⟩
      · by_cases hold : n ∈ names
        · exact .inr ⟨.duplicate n, names.length, hat, hempty, by rw [htake]; exact hold,
            by rw [htake]; exact hnames⟩
        · exact .inl (hnames.concat hempty hold)
    · exact .inr ⟨f, hf.append [n]⟩

/-! ## The walk through the names -/

theorem firstFault_cons_of_new (hne : n ≠ "") (hnew : n ∉ seen) (rest : List String) :
    firstFault seen (n :: rest) = firstFault (n :: seen) rest := by
  rw [firstFault, if_neg hne, if_neg hnew]

/-- The walk passes names that are in order with those it has seen, and remembers them. -/
theorem firstFault_append (seen : List String) {before : List String}
    (h : InOrder (seen.reverse ++ before)) (rest : List String) :
    firstFault seen (before ++ rest) = firstFault (before.reverse ++ seen) rest := by
  induction before generalizing seen with
  | nil => rfl
  | cons n before ih =>
    have hnext : InOrder ((n :: seen).reverse ++ before) := by
      rw [List.reverse_cons, List.append_assoc]
      exact h
    have hnew : n ∉ seen := by
      have hdisjoint := (List.nodup_append.mp h.nodup).2.2
      exact fun hn => hdisjoint n (List.mem_reverse.mpr hn) n List.mem_cons_self rfl
    have hne : n ≠ "" := h.ne_empty n (List.mem_append_right _ List.mem_cons_self)
    rw [List.cons_append, firstFault_cons_of_new hne hnew, ih (n :: seen) hnext, List.reverse_cons,
      List.append_assoc, List.singleton_append]

/-- The walk comes to a place before which the names are in order. -/
theorem firstFault_of_take {i : Nat} (hat : names[i]? = some n) (h : InOrder (names.take i)) :
    firstFault [] names = firstFault (names.take i).reverse (n :: names.drop (i + 1)) := by
  obtain ⟨hi, rfl⟩ := List.getElem?_eq_some_iff.mp hat
  have hrun := firstFault_append [] h (names.drop i)
  rwa [List.take_append_drop, List.append_nil, List.drop_eq_getElem_cons hi] at hrun

theorem FaultIn.firstFault_eq (h : FaultIn names f) : firstFault [] names = some f := by
  cases f with
  | emptyName i =>
    obtain ⟨hat, hbefore⟩ := h
    obtain ⟨hi, -⟩ := List.getElem?_eq_some_iff.mp hat
    rw [firstFault_of_take hat hbefore, firstFault, if_pos rfl, List.length_reverse,
      List.length_take_of_le (Nat.le_of_lt hi)]
  | duplicate name =>
    obtain ⟨j, hat, hne, hearlier, hbefore⟩ := h
    rw [firstFault_of_take hat hbefore, firstFault, if_neg hne,
      if_pos (List.mem_reverse.mpr hearlier)]

theorem firstFault_nil_eq_none_iff : firstFault [] names = none ↔ InOrder names := by
  rw [firstFault_eq_none_iff]
  exact ⟨fun h => ⟨fun n hn => (h.1 n hn).1, h.2⟩,
    fun h => ⟨fun n hn => ⟨h.ne_empty n hn, List.not_mem_nil⟩, h.nodup⟩⟩

theorem firstFault_nil_eq_some_iff : firstFault [] names = some f ↔ FaultIn names f := by
  constructor
  · intro h
    rcases inOrder_or_exists_faultIn names with hnames | ⟨g, hg⟩
    · rw [firstFault_nil_eq_none_iff.mpr hnames] at h
      cases h
    · rw [hg.firstFault_eq] at h
      rwa [← Option.some.inj h]
  · exact FaultIn.firstFault_eq

theorem FaultIn.unique {g : Fault} (hf : FaultIn names f) (hg : FaultIn names g) : f = g :=
  Option.some.inj (hf.firstFault_eq.symm.trans hg.firstFault_eq)

theorem InOrder.not_faultIn (h : InOrder names) : ¬ FaultIn names f := by
  intro hf
  have hnone := firstFault_nil_eq_none_iff.mpr h
  rw [hf.firstFault_eq] at hnone
  cases hnone

/-! ## The outcome of the check -/

section

variable {root name : String} {i j : Nat}

theorem ofNames_eq_error_iff : ofNames root names = .error f ↔ FaultIn names f := by
  rw [← firstFault_nil_eq_some_iff]
  unfold ofNames
  split
  · next g hg => rw [hg, Except.error.injEq, Option.some.injEq]
  · next hg => simp [hg]

theorem ofNames_eq_ok_iff {r : Registry} :
    ofNames root names = .ok r ↔ InOrder names ∧ r.root = root ∧ r.crates = names := by
  constructor
  · intro h
    unfold ofNames at h
    split at h
    · cases h
    · next hg =>
      cases h
      exact ⟨firstFault_nil_eq_none_iff.mp hg, rfl, rfl⟩
  · intro h
    obtain ⟨-, rfl, rfl⟩ := h
    exact ofNames_root_crates r

theorem exists_ofNames_eq_ok_iff : (∃ r, ofNames root names = .ok r) ↔ InOrder names := by
  constructor
  · intro h
    obtain ⟨r, hr⟩ := h
    exact (ofNames_eq_ok_iff.mp hr).1
  · intro h
    exact ⟨⟨root, names, h.ne_empty, h.nodup⟩, ofNames_eq_ok_iff.mpr ⟨h, rfl, rfl⟩⟩

theorem inOrder_or_emptyAt_or_repeatsAt (names : List String) :
    InOrder names ∨ (∃ i, EmptyAt names i) ∨ ∃ s j, RepeatsAt names s j := by
  rcases inOrder_or_exists_faultIn names with h | ⟨f, hf⟩
  · exact .inl h
  · cases f with
    | emptyName i => exact .inr (.inl ⟨i, hf⟩)
    | duplicate s => exact .inr (.inr ⟨s, hf⟩)

theorem InOrder.not_emptyAt (h : InOrder names) : ¬ EmptyAt names i :=
  h.not_faultIn (f := .emptyName i)

theorem InOrder.not_repeatsAt (h : InOrder names) : ¬ RepeatsAt names name j := by
  intro hr
  have hf : FaultIn names (.duplicate name) := ⟨j, hr⟩
  exact h.not_faultIn hf

theorem EmptyAt.not_repeatsAt (h : EmptyAt names i) : ¬ RepeatsAt names name j := by
  intro hr
  have hempty : FaultIn names (.emptyName i) := h
  have hrepeat : FaultIn names (.duplicate name) := ⟨j, hr⟩
  cases hempty.unique hrepeat

end

/-- A registry is made exactly of names that are in order, and holds them as they are
given.  Otherwise the check reports the fault at the first place up to which the names are
no longer in order.  The three outcomes leave nothing out and never meet. -/
theorem ofNames_outcome (root : String) (names : List String) :
    ((∃ r, ofNames root names = .ok r) ↔ InOrder names) ∧
    (∀ r, ofNames root names = .ok r ↔ InOrder names ∧ r.root = root ∧ r.crates = names) ∧
    (∀ i, ofNames root names = .error (.emptyName i) ↔ EmptyAt names i) ∧
    (∀ s, ofNames root names = .error (.duplicate s) ↔ ∃ j, RepeatsAt names s j) ∧
    (InOrder names ∨ (∃ i, EmptyAt names i) ∨ ∃ s j, RepeatsAt names s j) ∧
    ¬ (InOrder names ∧ ∃ i, EmptyAt names i) ∧
    ¬ (InOrder names ∧ ∃ s j, RepeatsAt names s j) ∧
    ¬ ((∃ i, EmptyAt names i) ∧ ∃ s j, RepeatsAt names s j) := by
  refine ⟨exists_ofNames_eq_ok_iff, fun r => ofNames_eq_ok_iff, fun i => ofNames_eq_error_iff,
    fun s => ofNames_eq_error_iff, inOrder_or_emptyAt_or_repeatsAt names, ?_, ?_, ?_⟩
  · rintro ⟨h, i, hi⟩
    exact h.not_emptyAt hi
  · rintro ⟨h, s, j, hj⟩
    exact h.not_repeatsAt hj
  · rintro ⟨⟨i, hi⟩, s, j, hj⟩
    exact hi.not_repeatsAt hj

example (root : String) : ofNames root ["b", "a", "b", "", ""] = .error (.duplicate "b") := rfl

end Registry
end ChangeImpact
