/-
Chains of registered names.

A path can lie below several crates at once, and then their names begin each other.  So
the crates that own one path, taken from the shortest name to the longest, form a chain.
How many crates a path can have is therefore a matter of the names alone: it is the length
of the longest chain.  In the catalog no name begins one that begins a third.
-/
import Mathlib.Data.List.Chain
import ChangeImpact.Proofs.Registry.Overlaps

namespace ChangeImpact
namespace Registry

/-- Different registered names, each of which begins the next. -/
structure IsChain (r : Registry) (names : List String) : Prop where
  registered : names ⊆ r.crates
  nodup : names.Nodup
  nested : names.IsChain fun a b => a.toList <+: b.toList

/-- No chain has one name more than `k`. -/
def ChainsAtMost (r : Registry) (k : Nat) : Prop :=
  ∀ names, r.IsChain names → names.length ≠ k + 1

variable {r : Registry} {names : List String} {k : Nat}

theorem IsChain.take (h : r.IsChain names) (n : Nat) : r.IsChain (names.take n) where
  registered := fun _ ha => h.registered (List.mem_of_mem_take ha)
  nodup := h.nodup.sublist (List.take_sublist n names)
  nested := h.nested.take n

/-- A chain that is too long would begin with one of exactly the length that is ruled out. -/
theorem ChainsAtMost.length_le (hk : r.ChainsAtMost k) (h : r.IsChain names) :
    names.length ≤ k := by
  by_contra hlong
  refine hk (names.take (k + 1)) (h.take (k + 1)) ?_
  rw [List.length_take]
  omega

theorem IsChain.pairwise (h : r.IsChain names) :
    names.Pairwise fun a b => a.toList <+: b.toList := by
  have : Trans (fun a b : String => a.toList <+: b.toList)
      (fun a b : String => a.toList <+: b.toList) (fun a b : String => a.toList <+: b.toList) :=
    ⟨fun hab hbd => hab.trans hbd⟩
  exact List.isChain_iff_pairwise.mp h.nested

/-- Every name of a chain begins the last one. -/
theorem IsChain.prefix_getLast (h : r.IsChain names) (hne : names ≠ []) {a : String}
    (ha : a ∈ names) : a.toList <+: (names.getLast hne).toList := by
  have hp := h.pairwise
  rw [← List.dropLast_append_getLast hne, List.pairwise_append] at hp
  rw [← List.dropLast_append_getLast hne, List.mem_append, List.mem_singleton] at ha
  rcases ha with ha | rfl
  · exact hp.2.2 a ha _ (List.mem_singleton_self _)
  · exact List.prefix_rfl

theorem exists_perm_pairwise_length (names : List String) :
    ∃ sorted : List String, sorted.Perm names ∧
      sorted.Pairwise fun a b => a.toList.length ≤ b.toList.length := by
  refine ⟨_, names.mergeSort_perm fun a b => decide (a.toList.length ≤ b.toList.length), ?_⟩
  refine (List.pairwise_mergeSort ?_ ?_ names).imp of_decide_eq_true
  · intro a b d hab hbd
    simp only [decide_eq_true_eq] at hab hbd ⊢
    exact Nat.le_trans hab hbd
  · intro a b
    simp only [Bool.or_eq_true, decide_eq_true_eq]
    exact Nat.le_total _ _

/-- Names of which any two begin each other, in one order or the other, are a chain in the
order of their lengths. -/
theorem exists_isChain_perm (hreg : names ⊆ r.crates) (hnodup : names.Nodup)
    (hcomp : ∀ a ∈ names, ∀ b ∈ names, a.toList <+: b.toList ∨ b.toList <+: a.toList) :
    ∃ chain, r.IsChain chain ∧ chain.Perm names := by
  obtain ⟨chain, hperm, hsorted⟩ := exists_perm_pairwise_length names
  have hnested : chain.Pairwise fun a b => a.toList <+: b.toList := by
    refine hsorted.imp_of_mem fun {a b} ha hb hle => ?_
    rcases hcomp a (hperm.mem_iff.mp ha) b (hperm.mem_iff.mp hb) with h | h
    · exact h
    · have heq : b.toList = a.toList := h.eq_of_length (Nat.le_antisymm h.length_le hle)
      exact heq ▸ List.prefix_rfl
  refine ⟨chain, ⟨?_, hperm.nodup_iff.mpr hnodup, hnested.isChain⟩, hperm⟩
  exact fun a ha => hreg (hperm.mem_iff.mp ha)

end Registry

/-- No longer name of an overlap in the catalog is the shorter one of another. -/
theorem Catalog.chainsAtMost_registry : Catalog.registry.ChainsAtMost 2 := by
  have hends : ∀ o ∈ Catalog.registry.overlaps, ∀ o' ∈ Catalog.registry.overlaps,
      o.longer ≠ o'.shorter := by
    decide +kernel
  intro names h hlen
  obtain ⟨a, b, d, rfl⟩ := List.length_eq_three.mp hlen
  obtain ⟨hab, hbd⟩ : a.toList <+: b.toList ∧ b.toList <+: d.toList := by
    simpa using h.nested
  obtain ⟨hnb, hnd⟩ : (a ≠ b ∧ a ≠ d) ∧ b ≠ d := by
    simpa using h.nodup
  have hmem : ∀ n ∈ [a, b, d], n ∈ Catalog.registry.crates := fun n hn => h.registered hn
  have hfirst : ⟨a, b⟩ ∈ Catalog.registry.overlaps :=
    Registry.mem_overlaps_iff.mpr ⟨hmem a (by simp), hmem b (by simp), hnb.1, hab⟩
  have hsecond : ⟨b, d⟩ ∈ Catalog.registry.overlaps :=
    Registry.mem_overlaps_iff.mpr ⟨hmem b (by simp), hmem d (by simp), hnd, hbd⟩
  exact hends _ hfirst _ hsecond rfl

end ChangeImpact
