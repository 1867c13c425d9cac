/-
How many jobs a selection has.

There is at most one job for each registered crate and each trigger, and paths that are the
beginnings of all crates and the endings of both triggers call for all of them.  A bound in
terms of the changed paths charges each match to the path that it records.  The crates
charged to one path form a chain of names, and conversely the names of a chain are all
charged to the path that the last one begins, so the longest chain is the exact number of
crates that a path can have.  A path takes one trigger besides, unless it can have both
endings.
-/
import Mathlib.Algebra.BigOperators.Group.List.Lemmas
import Mathlib.Algebra.Order.BigOperators.Group.List
import Mathlib.Algebra.Order.Ring.Nat
import ChangeImpact.Proofs.Registry.Chains

namespace ChangeImpact

variable {c : Config} {paths : List String} {k : Nat}

/-! ## All jobs of a configuration -/

namespace Config

theorem length_jobs (c : Config) (paths : List String) :
    (c.jobs paths).length = (c.select paths).length :=
  List.length_map _

theorem length_jobs_le_maxJobs (c : Config) (paths : List String) :
    (c.jobs paths).length ≤ c.maxJobs := by
  have hcrates := List.length_filterMap_le (crateMatch? paths c.registry.root) c.registry.crates
  have htriggers := List.length_filterMap_le (triggerMatch? paths) c.triggers
  rw [length_jobs, select, List.length_append]
  exact Nat.add_le_add hcrates htriggers

/-- The beginning of each crate and the ending of each trigger. -/
def touchAll (c : Config) : List String :=
  c.registry.crates.map c.registry.start ++ c.triggers.map Trigger.suffix

theorem isSome_crateMatch?_touchAll {name : String} (hn : name ∈ c.registry.crates) :
    (crateMatch? c.touchAll c.registry.root name).isSome = true := by
  have hp : c.registry.start name ∈ c.touchAll :=
    List.mem_append_left _ (List.mem_map_of_mem hn)
  have hbelow : LiesBelow c.registry.root name (c.registry.start name) :=
    ⟨"", String.append_empty.symm⟩
  obtain ⟨m, hv⟩ := exists_crateVerdict_iff.mpr ⟨_, hp, hbelow⟩
  exact Option.isSome_iff_exists.mpr ⟨m, crateMatch?_eq_iff.mpr hv⟩

theorem isSome_triggerMatch?_touchAll {t : Trigger} (ht : t ∈ c.triggers) :
    (triggerMatch? c.touchAll t).isSome = true := by
  have hp : t.suffix ∈ c.touchAll := List.mem_append_right _ (List.mem_map_of_mem ht)
  obtain ⟨p, hfirst⟩ := exists_isFirst hp (P := EndsIn t.suffix) ⟨"", String.empty_append.symm⟩
  exact Option.isSome_iff_exists.mpr ⟨_, triggerMatch?_eq_iff.mpr (.fired hfirst)⟩

theorem length_jobs_touchAll (c : Config) : (c.jobs c.touchAll).length = c.maxJobs := by
  have hcrates := List.filterMap_length_eq_length.mpr fun n hn =>
    isSome_crateMatch?_touchAll (c := c) hn
  have htriggers := List.filterMap_length_eq_length.mpr fun t ht =>
    isSome_triggerMatch?_touchAll (c := c) ht
  rw [length_jobs, select, List.length_append, hcrates, htriggers]
  rfl

end Config

/-! ## Matches charged to their paths -/

/-- How many of the matches record a path. -/
def charged (ms : List Match) (p : String) : Nat :=
  ms.countP fun m => m.path == p

theorem charged_append (ms ms' : List Match) (p : String) :
    charged (ms ++ ms') p = charged ms p + charged ms' p :=
  List.countP_append

theorem charged_pos_iff {ms : List Match} {p : String} :
    0 < charged ms p ↔ ∃ m ∈ ms, m.path = p := by
  rw [charged, List.countP_pos_iff]
  simp only [beq_iff_eq]

theorem charged_toList_le (o : Option Match) (p : String) : charged o.toList p ≤ 1 := by
  refine List.countP_le_length.trans ?_
  cases o with
  | none => exact Nat.zero_le 1
  | some m => exact Nat.le_refl 1

theorem charged_filterMap {α : Type} (f : α → Option Match) (as : List α) (p : String) :
    charged (as.filterMap f) p = (as.filter fun a => (f a).any fun m => m.path == p).length := by
  rw [charged, List.countP_filterMap, List.countP_eq_length_filter]
  congr 2
  funext a
  cases f a <;> rfl

theorem length_le_mul_length_dedup {l : List String} (hk : ∀ p, l.count p ≤ k) :
    l.length ≤ k * l.dedup.length := by
  calc l.length = (l.dedup.map fun p => l.count p).sum := l.sum_map_count_dedup_eq_length.symm
    _ ≤ (l.dedup.map fun p => l.count p).length • k := by
        refine List.sum_le_card_nsmul _ _ fun n hn => ?_
        obtain ⟨p, -, rfl⟩ := List.mem_map.mp hn
        exact hk p
    _ = k * l.dedup.length := by rw [List.length_map, Nat.nsmul_eq_mul, Nat.mul_comm]

/-- Where each path is charged at most `k` matches, the matches are at most `k` times the
different paths. -/
theorem length_le_mul_dedup {ms : List Match} (hmem : ∀ m ∈ ms, m.path ∈ paths)
    (hk : ∀ p, charged ms p ≤ k) : ms.length ≤ k * paths.dedup.length := by
  have hcount : ∀ p, (ms.map Match.path).count p ≤ k := by
    intro p
    rw [List.count, List.countP_map]
    exact hk p
  have hsub : (ms.map Match.path).dedup ⊆ paths.dedup := by
    intro p hp
    obtain ⟨m, hm, rfl⟩ := List.mem_map.mp (List.mem_dedup.mp hp)
    exact List.mem_dedup.mpr (hmem m hm)
  calc ms.length = (ms.map Match.path).length := (List.length_map _).symm
    _ ≤ k * (ms.map Match.path).dedup.length := length_le_mul_length_dedup hcount
    _ ≤ k * paths.dedup.length :=
        Nat.mul_le_mul_left k (List.subperm_of_subset (List.nodup_dedup _) hsub).length_le

/-! ## Crates charged to one path -/

theorem CrateVerdict.liesBelow_path {root name : String} {m : Match}
    (h : CrateVerdict paths root name (some m)) : LiesBelow root name m.path := by
  cases h with
  | full hp => exact hp.holds.1
  | testOnly _ hp => exact hp.holds

theorem TriggerVerdict.endsIn_path {t : Trigger} {m : Match}
    (h : TriggerVerdict paths t (some m)) : EndsIn t.suffix m.path := by
  cases h with
  | fired hp => exact hp.holds

namespace Config

/-- The matches of a selection that are for crates, in full or for their tests. -/
def crateMatches (c : Config) (paths : List String) : List Match :=
  (c.select paths).filter fun m => m.kind ≠ .trigger

theorem crateMatches_eq (c : Config) (paths : List String) :
    c.crateMatches paths = c.registry.crates.filterMap (crateMatch? paths c.registry.root) := by
  rw [crateMatches, select, List.filter_append, List.filter_eq_self.mpr, List.filter_eq_nil_iff.mpr,
    List.append_nil]
  · intro m hm
    obtain ⟨t, -, ht⟩ := List.mem_filterMap.mp hm
    simpa using (triggerMatch?_eq_iff.mp ht).kind_eq
  · intro m hm
    obtain ⟨n, -, hn⟩ := List.mem_filterMap.mp hm
    simpa using (crateMatch?_eq_iff.mp hn).kind_ne_trigger

/-- The crates whose matches record a path. -/
def cratesCharged (c : Config) (paths : List String) (p : String) : List String :=
  c.registry.crates.filter fun n =>
    (crateMatch? paths c.registry.root n).any fun m => m.path == p

theorem charged_crateMatches (c : Config) (paths : List String) (p : String) :
    charged (c.crateMatches paths) p = (c.cratesCharged paths p).length := by
  rw [crateMatches_eq, charged_filterMap, cratesCharged]

theorem mem_cratesCharged_iff {p n : String} :
    n ∈ c.cratesCharged paths p ↔ n ∈ c.registry.crates ∧
      ∃ m, CrateVerdict paths c.registry.root n (some m) ∧ m.path = p := by
  rw [cratesCharged, List.mem_filter, Option.any_eq_true]
  simp only [crateMatch?_eq_iff, beq_iff_eq]

theorem exists_isChain_cratesCharged (c : Config) (paths : List String) (p : String) :
    ∃ chain, c.registry.IsChain chain ∧ chain.Perm (c.cratesCharged paths p) := by
  have hbelow : ∀ n ∈ c.cratesCharged paths p, LiesBelow c.registry.root n p := by
    intro n hn
    obtain ⟨-, m, hv, rfl⟩ := mem_cratesCharged_iff.mp hn
    exact hv.liesBelow_path
  refine Registry.exists_isChain_perm (fun n hn => (mem_cratesCharged_iff.mp hn).1)
    (c.registry.nodup.filter _) fun a ha b hb => ?_
  exact prefix_or_prefix_of_liesBelow (hbelow a ha) (hbelow b hb)

theorem charged_crateMatches_le (hk : c.registry.ChainsAtMost k) (paths : List String)
    (p : String) : charged (c.crateMatches paths) p ≤ k := by
  obtain ⟨chain, hchain, hperm⟩ := c.exists_isChain_cratesCharged paths p
  rw [charged_crateMatches, ← hperm.length_eq]
  exact hk.length_le hchain

/-- The names of a chain are all charged to the beginning of the last one. -/
theorem length_le_charged_getLast {names : List String} (h : c.registry.IsChain names)
    (hne : names ≠ []) :
    names.length ≤ charged (c.crateMatches [c.registry.start (names.getLast hne)])
      (c.registry.start (names.getLast hne)) := by
  rw [charged_crateMatches]
  refine (List.subperm_of_subset h.nodup fun n hn => ?_).length_le
  refine mem_cratesCharged_iff.mpr ⟨h.registered hn, ?_⟩
  have hbelow : LiesBelow c.registry.root n (c.registry.start (names.getLast hne)) := by
    rw [liesBelow_iff_isPrefix, Registry.start, String.toList_append]
    exact (List.prefix_append_right_inj _).mpr (h.prefix_getLast hne hn)
  obtain ⟨m, hv⟩ := exists_crateVerdict_iff.mpr ⟨_, List.mem_singleton_self _, hbelow⟩
  have hm : m ∈ c.select [c.registry.start (names.getLast hne)] :=
    mem_select_iff.mpr (.inl ⟨n, h.registered hn, hv⟩)
  exact ⟨m, hv, List.mem_singleton.mp (path_mem_of_mem_select hm)⟩

theorem chainsAtMost_iff :
    c.registry.ChainsAtMost k ↔ ∀ paths p, charged (c.crateMatches paths) p ≤ k := by
  constructor
  · intro hk paths p
    exact charged_crateMatches_le hk paths p
  · intro h names hchain hlen
    have hne : names ≠ [] := by
      rintro rfl
      cases hlen
    have hle := (length_le_charged_getLast hchain hne).trans (h _ _)
    omega

theorem length_crateMatches_le (hk : c.registry.ChainsAtMost k) (paths : List String) :
    (c.crateMatches paths).length ≤ k * paths.dedup.length := by
  refine length_le_mul_dedup (fun m hm => ?_) (charged_crateMatches_le hk paths)
  exact path_mem_of_mem_select (List.mem_filter.mp hm).1

/-! ## Triggers charged to one path -/

/-- No path has the endings of both triggers. -/
def EndingsApart (c : Config) : Prop :=
  ∀ p, ¬ (EndsIn c.native.suffix p ∧ EndsIn c.dsl.suffix p)

theorem endsIn_of_charged_pos {t : Trigger} {p : String}
    (h : 0 < charged (triggerMatch? paths t).toList p) : EndsIn t.suffix p := by
  obtain ⟨m, hm, rfl⟩ := charged_pos_iff.mp h
  exact (triggerMatch?_eq_iff.mp (Option.mem_toList.mp hm)).endsIn_path

theorem charged_triggers_le (h : c.EndingsApart) (paths : List String) (p : String) :
    charged (c.triggers.filterMap (triggerMatch? paths)) p ≤ 1 := by
  have hn : charged (triggerMatch? paths c.native).toList p ≤ 1 := charged_toList_le _ p
  have hd : charged (triggerMatch? paths c.dsl).toList p ≤ 1 := charged_toList_le _ p
  rw [filterMap_triggers, charged_append]
  by_contra hboth
  have hnpos : 0 < charged (triggerMatch? paths c.native).toList p := by omega
  have hdpos : 0 < charged (triggerMatch? paths c.dsl).toList p := by omega
  exact h p ⟨endsIn_of_charged_pos hnpos, endsIn_of_charged_pos hdpos⟩

theorem charged_select_le (hk : c.registry.ChainsAtMost k) (h : c.EndingsApart)
    (paths : List String) (p : String) : charged (c.select paths) p ≤ k + 1 := by
  rw [select, ← crateMatches_eq, charged_append]
  exact Nat.add_le_add (charged_crateMatches_le hk paths p) (charged_triggers_le h paths p)

theorem length_jobs_le_mul (hk : c.registry.ChainsAtMost k) (h : c.EndingsApart)
    (paths : List String) : (c.jobs paths).length ≤ (k + 1) * paths.dedup.length := by
  rw [length_jobs]
  exact length_le_mul_dedup (fun m hm => path_mem_of_mem_select hm) (charged_select_le hk h paths)

end Config

theorem Catalog.endingsApart_config : Catalog.config.EndingsApart := by
  intro p h
  obtain ⟨⟨front, hn⟩, front', hd⟩ := h
  have hlast := congrArg (fun s : String => s.toList.getLast?) (hn.symm.trans hd)
  rw [String.toList_append, String.toList_append, List.getLast?_append, List.getLast?_append]
    at hlast
  exact absurd (show some 's' = some 'o' from hlast) (by decide)

/-- A selection has at most two jobs more than there are crates, and some change set gives
that many.  The length of the longest chain is the greatest number of crates that can be
charged to one path, which bounds the matches of crates by the different paths.  In the
catalog no chain has three names and no path both endings, so each path stands for at most
three jobs. -/
theorem length_jobs_bounds :
    (∀ (c : Config) (paths : ChangeSet), (c.jobs paths).length ≤ c.maxJobs) ∧
    (∀ c : Config, c.maxJobs = c.registry.crates.length + 2 ∧
      ∃ paths : ChangeSet, (c.jobs paths).length = c.maxJobs) ∧
    (∀ (c : Config) (k : Nat), c.registry.ChainsAtMost k ↔
      ∀ (paths : ChangeSet) (p : String), charged (c.crateMatches paths) p ≤ k) ∧
    (∀ (c : Config) (k : Nat), c.registry.ChainsAtMost k → ∀ paths : ChangeSet,
      (c.crateMatches paths).length ≤ k * paths.dedup.length) ∧
    (∀ (c : Config) (k : Nat), c.registry.ChainsAtMost k → c.EndingsApart →
      ∀ paths : ChangeSet, (c.jobs paths).length ≤ (k + 1) * paths.dedup.length) ∧
    Catalog.registry.ChainsAtMost 2 ∧ Catalog.config.EndingsApart ∧
    ∀ paths : ChangeSet, (Catalog.config.jobs paths).length ≤ 3 * paths.length := by
  have hchains := Catalog.chainsAtMost_registry
  have hends := Catalog.endingsApart_config
  refine ⟨Config.length_jobs_le_maxJobs, fun c => ⟨rfl, c.touchAll, c.length_jobs_touchAll⟩,
    fun c k => Config.chainsAtMost_iff, fun c k hk => Config.length_crateMatches_le hk,
    fun c k hk h => Config.length_jobs_le_mul hk h, hchains, hends, fun paths => ?_⟩
  calc (Catalog.config.jobs paths).length ≤ (2 + 1) * paths.dedup.length :=
        Config.length_jobs_le_mul hchains hends paths
    _ ≤ 3 * paths.length := Nat.mul_le_mul_left 3 paths.dedup_sublist.length_le

/-- One path of the catalog, given twice: it is charged two crates and a trigger, as many
as it can be. -/
theorem length_jobs_bounds_sierra :
    let paths : ChangeSet := ["crates/cairo-lang-sierra-gas/src/lib.rs",
      "crates/cairo-lang-sierra-gas/src/lib.rs"]
    Catalog.registry.ChainsAtMost 2 ∧ Catalog.config.EndingsApart ∧
      charged (Catalog.config.crateMatches paths) "crates/cairo-lang-sierra-gas/src/lib.rs" = 2 ∧
      (Catalog.config.crateMatches paths).length = 2 ∧
      (Catalog.config.crateMatches paths).length ≤ 2 * paths.dedup.length ∧
      (Catalog.config.jobs paths).length = 3 ∧
      (Catalog.config.jobs paths).length ≤ (2 + 1) * paths.dedup.length ∧
      paths.dedup.length = 1 := by
  intro paths
  obtain ⟨-, -, -, hcrates, hjobs, hchains, hends, -⟩ := length_jobs_bounds
  let p := "crates/cairo-lang-sierra-gas/src/lib.rs"
  have hselect : Catalog.config.select paths =
      [⟨Token.full "sierra", .crate, some "sierra", p⟩,
        ⟨Token.full "sierra-gas", .crate, some "sierra-gas", p⟩,
        ⟨⟨"-rust-"⟩, .trigger, none, p⟩] := by
    decide +kernel
  refine ⟨hchains, hends, ?_, ?_, hcrates _ 2 hchains paths, ?_, hjobs _ 2 hchains hends paths,
    by decide +kernel⟩
  · rw [Config.crateMatches, hselect]
    decide +kernel
  · rw [Config.crateMatches, hselect]
    decide +kernel
  · rw [Config.length_jobs, hselect]
    rfl

end ChangeImpact
