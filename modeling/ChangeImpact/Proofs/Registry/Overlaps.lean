/-
What an overlap of two crates means for selections.

The overlaps of a registry are found by comparing names.  They say something about every
selection: `⟨a, b⟩` is listed exactly if no change set gives `b` a job without giving `a`
one.  One direction is that the paths of `b` are among those of `a`.  For the other it is
enough to change the one path that is the beginning of `b` itself.  The root plays no part
in it, since all paths of the crates begin with it.
-/
import ChangeImpact.Proofs.Selection.Entries

namespace ChangeImpact

/-! ## Paths below two crates -/

section

variable {root a b path : String}

theorem liesBelow_iff_isPrefix :
    LiesBelow root a path ↔ root.toList ++ a.toList <+: path.toList := by
  rw [← isBelow_eq_true_iff, isBelow_iff, String.toList_append]

theorem LiesBelow.of_isPrefix (h : LiesBelow root b path) (hab : a.toList <+: b.toList) :
    LiesBelow root a path := by
  rw [liesBelow_iff_isPrefix] at h ⊢
  exact ((List.prefix_append_right_inj _).mpr hab).trans h

theorem prefix_of_liesBelow_start (h : LiesBelow root a (root ++ b)) :
    a.toList <+: b.toList := by
  rw [liesBelow_iff_isPrefix, String.toList_append] at h
  exact (List.prefix_append_right_inj _).mp h

/-- Of two crates with a path in common, one name begins the other. -/
theorem prefix_or_prefix_of_liesBelow (ha : LiesBelow root a path) (hb : LiesBelow root b path) :
    a.toList <+: b.toList ∨ b.toList <+: a.toList := by
  rw [liesBelow_iff_isPrefix] at ha hb
  rcases List.prefix_or_prefix_of_prefix ha hb with h | h
  · exact .inl ((List.prefix_append_right_inj _).mp h)
  · exact .inr ((List.prefix_append_right_inj _).mp h)

end

/-! ## The order of the overlaps -/

namespace Registry

variable {r : Registry} {a b d : String}

/-- The order of overlaps by the places of the shorter names, then of the longer ones. -/
def Overlap.ComesBefore (r : Registry) (x y : Overlap) : Prop :=
  r.crates.idxOf x.shorter < r.crates.idxOf y.shorter ∨
    x.shorter = y.shorter ∧ r.crates.idxOf x.longer < r.crates.idxOf y.longer

theorem Overlap.ComesBefore.ne {x y : Overlap} (h : Overlap.ComesBefore r x y) : x ≠ y := by
  intro he
  rw [he] at h
  rcases h with h | ⟨-, h⟩
  · exact Nat.lt_irrefl _ h
  · exact Nat.lt_irrefl _ h

theorem pairwise_idxOf_lt (r : Registry) :
    r.crates.Pairwise fun a b => r.crates.idxOf a < r.crates.idxOf b := by
  rw [List.pairwise_iff_getElem]
  intro i j hi hj hij
  rw [r.nodup.idxOf_getElem i hi, r.nodup.idxOf_getElem j hj]
  exact hij

theorem pairwise_overlaps (r : Registry) : r.overlaps.Pairwise (Overlap.ComesBefore r) := by
  rw [overlaps, List.pairwise_flatMap]
  constructor
  · intro a _
    rw [List.pairwise_map]
    refine (r.pairwise_idxOf_lt.filter _).imp fun h => ?_
    exact .inr ⟨rfl, h⟩
  · refine r.pairwise_idxOf_lt.imp fun h x hx y hy => ?_
    obtain ⟨_, -, rfl⟩ := List.mem_map.mp hx
    obtain ⟨_, -, rfl⟩ := List.mem_map.mp hy
    exact .inl h

theorem nodup_overlaps (r : Registry) : r.overlaps.Nodup :=
  r.pairwise_overlaps.imp fun h => h.ne

/-! ## Overlaps as a relation -/

theorem not_mem_overlaps_swap (h : ⟨a, b⟩ ∈ r.overlaps) : ⟨b, a⟩ ∉ r.overlaps := by
  intro h'
  obtain ⟨-, -, hne, hab⟩ := mem_overlaps_iff.mp h
  obtain ⟨-, -, -, hba⟩ := mem_overlaps_iff.mp h'
  exact hne (String.toList_inj.mp (hab.eq_of_length_le hba.length_le))

theorem mem_overlaps_trans (hab : ⟨a, b⟩ ∈ r.overlaps) (hbd : ⟨b, d⟩ ∈ r.overlaps) :
    ⟨a, d⟩ ∈ r.overlaps := by
  obtain ⟨ha, -, -, hp⟩ := mem_overlaps_iff.mp hab
  obtain ⟨-, hd, -, hq⟩ := mem_overlaps_iff.mp hbd
  have hne : a ≠ d := by
    intro he
    rw [he] at hab
    exact not_mem_overlaps_swap hab hbd
  exact mem_overlaps_iff.mpr ⟨ha, hd, hne, hp.trans hq⟩

theorem mem_overlaps_or_swap (ha : a ∈ r.crates) (hb : b ∈ r.crates) (hne : a ≠ b)
    {path : String} (hpa : LiesBelow r.root a path) (hpb : LiesBelow r.root b path) :
    ⟨a, b⟩ ∈ r.overlaps ∨ ⟨b, a⟩ ∈ r.overlaps := by
  rcases prefix_or_prefix_of_liesBelow hpa hpb with h | h
  · exact .inl (mem_overlaps_iff.mpr ⟨ha, hb, hne, h⟩)
  · exact .inr (mem_overlaps_iff.mpr ⟨hb, ha, hne.symm, h⟩)

end Registry

/-! ## Overlaps and jobs -/

namespace Config

variable {c : Config} {a b : String} {paths : List String}

theorem GetsJob.of_isPrefix (h : c.GetsJob paths b) (ha : a ∈ c.registry.crates)
    (hab : a.toList <+: b.toList) : c.GetsJob paths a := by
  rw [getsJob_iff] at h ⊢
  obtain ⟨-, p, hp, hbelow⟩ := h
  exact ⟨ha, p, hp, hbelow.of_isPrefix hab⟩

theorem GetsFullJob.of_isPrefix (h : c.GetsFullJob paths b) (ha : a ∈ c.registry.crates)
    (hab : a.toList <+: b.toList) : c.GetsFullJob paths a := by
  rw [getsFullJob_iff] at h ⊢
  obtain ⟨-, p, hp, hbelow, hnot⟩ := h
  exact ⟨ha, p, hp, hbelow.of_isPrefix hab, hnot⟩

/-- The beginning of the paths of `b` tells whether `a` goes with `b`. -/
theorem prefix_of_forall_getsJob (hb : b ∈ c.registry.crates)
    (h : ∀ paths, c.GetsJob paths b → c.GetsJob paths a) : a.toList <+: b.toList := by
  have hjob : c.GetsJob [c.registry.root ++ b] b :=
    getsJob_iff.mpr ⟨hb, _, List.mem_singleton_self _, "", (String.append_empty).symm⟩
  obtain ⟨-, p, hp, hbelow⟩ := getsJob_iff.mp (h _ hjob)
  rw [List.mem_singleton.mp hp] at hbelow
  exact prefix_of_liesBelow_start hbelow

theorem mem_overlaps_iff_forall_getsJob :
    ⟨a, b⟩ ∈ c.registry.overlaps ↔ a ∈ c.registry.crates ∧ b ∈ c.registry.crates ∧ a ≠ b ∧
      ∀ paths, c.GetsJob paths b → c.GetsJob paths a := by
  rw [Registry.mem_overlaps_iff]
  constructor
  · intro h
    obtain ⟨ha, hb, hne, hab⟩ := h
    exact ⟨ha, hb, hne, fun paths hjob => hjob.of_isPrefix ha hab⟩
  · intro h
    obtain ⟨ha, hb, hne, hjobs⟩ := h
    exact ⟨ha, hb, hne, prefix_of_forall_getsJob hb hjobs⟩

end Config

/-- The pair of two different registered crates is listed exactly if the first gets a job
in every selection that has one of the second, and then it also gets its full job with the
full one of the second.  Any two crates with a path in common are listed in one order.
The pairs stand in the order of the registry, each once and never both ways around, and
they are a transitive relation. -/
theorem mem_overlaps_iff_getsJob (c : Config) :
    (∀ a b, ⟨a, b⟩ ∈ c.registry.overlaps ↔
      a ∈ c.registry.crates ∧ b ∈ c.registry.crates ∧ a ≠ b ∧
        ∀ paths, c.GetsJob paths b → c.GetsJob paths a) ∧
    (∀ a b, ⟨a, b⟩ ∈ c.registry.overlaps →
      ∀ paths, c.GetsFullJob paths b → c.GetsFullJob paths a) ∧
    (∀ a ∈ c.registry.crates, ∀ b ∈ c.registry.crates, a ≠ b →
      ∀ p, LiesBelow c.registry.root a p → LiesBelow c.registry.root b p →
        ⟨a, b⟩ ∈ c.registry.overlaps ∨ ⟨b, a⟩ ∈ c.registry.overlaps) ∧
    (∀ o ∈ c.registry.overlaps, c.registry.overlaps.count o = 1) ∧
    c.registry.overlaps.Pairwise (Registry.Overlap.ComesBefore c.registry) ∧
    (∀ a b, ⟨a, b⟩ ∈ c.registry.overlaps → ⟨b, a⟩ ∉ c.registry.overlaps) ∧
    ∀ a b d, ⟨a, b⟩ ∈ c.registry.overlaps → ⟨b, d⟩ ∈ c.registry.overlaps →
      ⟨a, d⟩ ∈ c.registry.overlaps := by
  refine ⟨fun a b => Config.mem_overlaps_iff_forall_getsJob, ?_, ?_, ?_,
    c.registry.pairwise_overlaps, fun a b => Registry.not_mem_overlaps_swap,
    fun a b d => Registry.mem_overlaps_trans⟩
  · intro a b h paths hfull
    obtain ⟨ha, -, -, hab⟩ := Registry.mem_overlaps_iff.mp h
    exact hfull.of_isPrefix ha hab
  · intro a ha b hb hne p hpa hpb
    exact Registry.mem_overlaps_or_swap ha hb hne hpa hpb
  · intro o ho
    exact List.count_eq_one_of_mem c.registry.nodup_overlaps ho

/-- Three names of which each begins the next, registered with the longest one first. -/
theorem mem_overlaps_iff_getsJob_chain :
    let c : Config := ⟨⟨"x", ["abc", "a", "ab"], by decide, by decide⟩,
      Catalog.native, Catalog.dsl⟩
    let overlaps := c.registry.overlaps
    overlaps = [⟨"a", "abc"⟩, ⟨"a", "ab"⟩, ⟨"ab", "abc"⟩] ∧ overlaps.count ⟨"ab", "abc"⟩ = 1 ∧
      ⟨"abc", "ab"⟩ ∉ overlaps ∧ (⟨"a", "abc"⟩ : Registry.Overlap) ∈ overlaps ∧
      c.GetsFullJob ["xabc/lib.rs"] "abc" ∧ c.GetsFullJob ["xabc/lib.rs"] "ab" ∧
      (⟨"ab", "abc"⟩ ∈ overlaps ∨ ⟨"abc", "ab"⟩ ∈ overlaps) := by
  intro c overlaps
  obtain ⟨-, hfull, hcommon, honce, -, hswap, htrans⟩ := mem_overlaps_iff_getsJob c
  have hshort : (⟨"a", "ab"⟩ : Registry.Overlap) ∈ overlaps := by decide +kernel
  have hlong : (⟨"ab", "abc"⟩ : Registry.Overlap) ∈ overlaps := by decide +kernel
  have hjob : c.GetsFullJob ["xabc/lib.rs"] "abc" :=
    ⟨⟨⟨"-abc-"⟩, .crate, some "abc", "xabc/lib.rs"⟩, by decide +kernel, rfl, rfl, rfl⟩
  exact ⟨by decide +kernel, honce _ hlong, hswap _ _ hlong, htrans _ _ _ hshort hlong, hjob,
    hfull _ _ hlong _ hjob, hcommon "ab" (by decide) "abc" (by decide) (by decide)
      "xabc/lib.rs" ⟨"c/lib.rs", rfl⟩ ⟨"/lib.rs", rfl⟩⟩

end ChangeImpact
