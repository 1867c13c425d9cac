/-
When no job is selected twice.

Read as texts, the full token of a crate and the test-only token of another can
be the same: `-a-test-only-` belongs to `a` in one way and to `a-test-only` in the
other.  A selection still tells them apart, because every path of the second crate
speaks of tests, so its full token is never given.  The tokens of crates therefore
never repeat.  What is left are the tokens of the triggers: `TokensApart` says which
of them a configuration must avoid.
-/
import Mathlib.Data.List.Nodup
import ChangeImpact.Catalog
import ChangeImpact.Proofs.Selection.Specification

namespace ChangeImpact

/-! ## Tokens of crates -/

theorem SpeaksOfTests.append {p : String} (h : SpeaksOfTests p) (a b : String) :
    SpeaksOfTests (a ++ p ++ b) := by
  obtain ⟨front, back, rfl⟩ := h
  exact ⟨a ++ front, back ++ b, by simp only [String.append_assoc]⟩

theorem LiesBelow.speaksOfTests {root name path : String} (h : LiesBelow root name path)
    (ht : SpeaksOfTests (root ++ name)) : SpeaksOfTests path := by
  obtain ⟨rest, rfl⟩ := h
  have := ht.append "" rest
  rwa [String.empty_append] at this

theorem speaksOfTests_append_testOnly (root name : String) :
    SpeaksOfTests (root ++ (name ++ "-test-only")) := by
  refine ⟨root ++ name ++ "-", "-only", ?_⟩
  simp only [String.append_assoc]
  rfl

theorem Token.full_eq_testOnly_iff {m n : String} :
    full m = testOnly n ↔ m = n ++ "-test-only" := by
  have h : testOnly n = full (n ++ "-test-only") := by
    unfold testOnly full
    rw [String.append_assoc, String.append_assoc, String.append_assoc]
    rfl
  rw [h]
  constructor
  · exact full_injective
  · intro he
    rw [he]

/-- A full token is only given to a crate whose own name and root do not speak of tests. -/
theorem CrateVerdict.job_cases {paths : List String} {root name : String} {m : Match}
    (h : CrateVerdict paths root name (some m)) :
    (m.kind = .crate ∧ m.job = Token.full name ∧ ¬ SpeaksOfTests (root ++ name)) ∨
      (m.kind = .testOnly ∧ m.job = Token.testOnly name) := by
  cases h with
  | full hp => exact .inl ⟨rfl, rfl, fun ht => hp.holds.2 (hp.holds.1.speaksOfTests ht)⟩
  | testOnly _ _ => exact .inr ⟨rfl, rfl⟩

/-- The token of a crate's match determines the crate and the kind, even between
selections with different registries. -/
theorem CrateVerdict.eq_of_job_eq {paths paths' : List String} {root root' m n : String}
    {x y : Match} (hx : CrateVerdict paths root m (some x))
    (hy : CrateVerdict paths' root' n (some y)) (h : x.job = y.job) :
    m = n ∧ x.kind = y.kind := by
  rcases hx.job_cases with ⟨hkx, hjx, htx⟩ | ⟨hkx, hjx⟩ <;>
    rcases hy.job_cases with ⟨hky, hjy, hty⟩ | ⟨hky, hjy⟩ <;>
    rw [hjx, hjy] at h
  · exact ⟨Token.full_injective h, by rw [hkx, hky]⟩
  · rw [Token.full_eq_testOnly_iff] at h
    subst h
    exact absurd (speaksOfTests_append_testOnly root n) htx
  · have h := Token.full_eq_testOnly_iff.mp h.symm
    subst h
    exact absurd (speaksOfTests_append_testOnly root' m) hty
  · exact ⟨Token.testOnly_injective h, by rw [hkx, hky]⟩

theorem crateJob?_eq_some_iff {paths : List String} {root name : String} {t : Token} :
    crateJob? paths root name = some t ↔
      ∃ m, CrateVerdict paths root name (some m) ∧ m.job = t := by
  rw [crateJob?, Option.map_eq_some_iff]
  exact exists_congr fun m => and_congr_left fun _ => crateMatch?_eq_iff

/-- The tokens of crates never repeat, whatever names stand in the registry. -/
theorem nodup_filterMap_crateJob? (r : Registry) (paths : List String) :
    (r.crates.filterMap (crateJob? paths r.root)).Nodup := by
  refine List.Nodup.filterMap (fun m n t hm hn => ?_) r.nodup
  rw [Option.mem_def, crateJob?_eq_some_iff] at hm hn
  obtain ⟨x, hx, hxt⟩ := hm
  obtain ⟨y, hy, hyt⟩ := hn
  exact (hx.eq_of_job_eq hy (hxt.trans hyt.symm)).1

/-! ## Tokens of triggers -/

theorem triggerJob?_eq_ite (paths : List String) (t : Trigger) :
    triggerJob? paths t = if paths.any t.fires then some t.job else none := by
  unfold triggerJob? triggerMatch?
  cases hp : paths.find? fun p => t.fires p with
  | none =>
    rw [List.find?_eq_none] at hp
    rw [if_neg]
    · rfl
    · rw [List.any_eq_true]
      intro hany
      obtain ⟨p, hm, hf⟩ := hany
      exact hp p hm hf
  | some p =>
    rw [if_pos]
    · rfl
    · exact List.any_eq_true.mpr ⟨p, List.mem_of_find?_eq_some hp, List.find?_some hp⟩

theorem eq_job_of_mem_triggerJob? {paths : List String} {t : Trigger} {k : Token}
    (h : k ∈ (triggerJob? paths t).toList) : k = t.job := by
  rw [Option.mem_toList, triggerJob?_eq_ite, Option.ite_none_right_eq_some] at h
  exact (Option.some.inj h.2).symm

theorem triggerJob?_of_mem {paths : List String} {t : Trigger} {p : String} (hp : p ∈ paths)
    (he : EndsIn t.suffix p) : triggerJob? paths t = some t.job := by
  rw [triggerJob?_eq_ite, if_pos]
  exact List.any_eq_true.mpr ⟨p, hp, fires_eq_true_iff.mpr he⟩

theorem Config.filterMap_triggers {α : Type} (c : Config) (f : Trigger → Option α) :
    c.triggers.filterMap f = (f c.native).toList ++ (f c.dsl).toList := by
  rw [triggers, List.filterMap_eq_flatMap_toList, List.flatMap_cons, List.flatMap_cons,
    List.flatMap_nil, List.append_nil]

theorem Config.jobs_eq (c : Config) (paths : List String) :
    c.jobs paths = c.registry.crates.filterMap (crateJob? paths c.registry.root) ++
      ((triggerJob? paths c.native).toList ++ (triggerJob? paths c.dsl).toList) := by
  rw [← filterMap_crateJob?_append_triggerJob?, filterMap_triggers]

theorem Config.mem_jobs_cases {c : Config} {paths : List String} {t : Token}
    (h : t ∈ c.jobs paths) :
    (∃ n ∈ c.registry.crates, t = Token.full n ∨ t = Token.testOnly n) ∨
      t = c.native.job ∨ t = c.dsl.job := by
  rw [Config.jobs_eq, List.mem_append, List.mem_append] at h
  rcases h with hc | hn | hd
  · obtain ⟨n, hn, hj⟩ := List.mem_filterMap.mp hc
    obtain ⟨m, hv, hm⟩ := crateJob?_eq_some_iff.mp hj
    refine .inl ⟨n, hn, ?_⟩
    rcases hv.job_cases with ⟨-, hjob, -⟩ | ⟨-, hjob⟩
    · exact .inl (hm.symm.trans hjob)
    · exact .inr (hm.symm.trans hjob)
  · exact .inr (.inl (eq_job_of_mem_triggerJob? hn))
  · exact .inr (.inr (eq_job_of_mem_triggerJob? hd))

/-! ## Configurations -/

/-- The tokens of the triggers are apart from each other and from every token that a
crate can get.  The full token of a crate that speaks of tests is never given, so a
trigger may have it. -/
structure Config.TokensApart (c : Config) : Prop where
  native_ne_dsl : c.native.job ≠ c.dsl.job
  ne_testOnly : ∀ n ∈ c.registry.crates, ∀ t ∈ c.triggers, t.job ≠ Token.testOnly n
  ne_full : ∀ n ∈ c.registry.crates, ∀ t ∈ c.triggers, t.job = Token.full n →
    SpeaksOfTests (c.registry.root ++ n)

namespace Config

variable {c : Config} {paths : List String}

theorem TokensApart.not_mem_crates (h : c.TokensApart) {t : Trigger} (ht : t ∈ c.triggers) :
    t.job ∉ c.registry.crates.filterMap (crateJob? paths c.registry.root) := by
  intro hm
  obtain ⟨n, hn, hj⟩ := List.mem_filterMap.mp hm
  obtain ⟨m, hv, hmj⟩ := crateJob?_eq_some_iff.mp hj
  rcases hv.job_cases with ⟨-, hfull, hnot⟩ | ⟨-, htest⟩
  · exact hnot (h.ne_full n hn t ht (hmj.symm.trans hfull))
  · exact h.ne_testOnly n hn t ht (hmj.symm.trans htest)

theorem TokensApart.nodup_jobs (h : c.TokensApart) (paths : List String) :
    (c.jobs paths).Nodup := by
  rw [jobs_eq, List.nodup_append, List.nodup_append]
  refine ⟨nodup_filterMap_crateJob? c.registry paths, ⟨?_, ?_, ?_⟩, ?_⟩
  · cases triggerJob? paths c.native <;> simp
  · cases triggerJob? paths c.dsl <;> simp
  · intro a ha b hb
    rw [eq_job_of_mem_triggerJob? ha, eq_job_of_mem_triggerJob? hb]
    exact h.native_ne_dsl
  · intro a ha b hb hab
    subst hab
    rcases List.mem_append.mp hb with hb | hb
    · rw [eq_job_of_mem_triggerJob? hb] at ha
      exact h.not_mem_crates List.mem_cons_self ha
    · rw [eq_job_of_mem_triggerJob? hb] at ha
      exact h.not_mem_crates (List.mem_cons_of_mem _ List.mem_cons_self) ha

/-- A crate and a trigger that give the same token repeat it. -/
theorem not_nodup_jobs {n : String} (hn : n ∈ c.registry.crates) {t : Trigger}
    (ht : t ∈ c.triggers) (hc : crateJob? paths c.registry.root n = some t.job)
    (hf : triggerJob? paths t = some t.job) : ¬ (c.jobs paths).Nodup := by
  rw [← filterMap_crateJob?_append_triggerJob?, List.nodup_append]
  intro hd
  obtain ⟨-, -, hne⟩ := hd
  exact hne t.job (List.mem_filterMap.mpr ⟨n, hn, hc⟩) t.job
    (List.mem_filterMap.mpr ⟨t, ht, hf⟩) rfl

theorem tokensApart_of_nodup_jobs (h : ∀ paths, (c.jobs paths).Nodup) : c.TokensApart where
  native_ne_dsl := by
    intro he
    have hd := h [c.native.suffix, c.dsl.suffix]
    rw [jobs_eq, triggerJob?_of_mem List.mem_cons_self ⟨"", String.empty_append.symm⟩,
      triggerJob?_of_mem (List.mem_cons_of_mem _ List.mem_cons_self)
        ⟨"", String.empty_append.symm⟩, he, List.nodup_append] at hd
    simp at hd
  ne_testOnly := by
    intro n hn t ht he
    let p := c.registry.root ++ n ++ "test" ++ t.suffix
    have hbelow : LiesBelow c.registry.root n p := ⟨"test" ++ t.suffix, by
      simp only [p, String.append_assoc]⟩
    have hspeaks : SpeaksOfTests p := ⟨c.registry.root ++ n, t.suffix, rfl⟩
    refine absurd (h [p]) (not_nodup_jobs hn ht ?_ ?_)
    · rw [he, crateJob?_eq_some_iff]
      refine ⟨_, .testOnly (p := p) ?_ ⟨[], [], rfl, hbelow, by simp⟩, rfl⟩
      intro q hq _
      rw [List.mem_singleton.mp hq]
      exact hspeaks
    · exact triggerJob?_of_mem List.mem_cons_self ⟨c.registry.root ++ n ++ "test", rfl⟩
  ne_full := by
    intro n hn t ht he
    by_cases hs : SpeaksOfTests (c.registry.root ++ n)
    · exact hs
    · refine absurd (h [c.registry.root ++ n, t.suffix]) (not_nodup_jobs hn ht ?_ ?_)
      · rw [he, crateJob?_eq_some_iff]
        refine ⟨_, .full ⟨[], [t.suffix], rfl, ⟨⟨"", ?_⟩, hs⟩, by simp⟩, rfl⟩
        rw [String.append_empty]
      · exact triggerJob?_of_mem (List.mem_cons_of_mem _ List.mem_cons_self)
          ⟨"", String.empty_append.symm⟩

theorem nodup_jobs_iff_tokensApart : (∀ paths, (c.jobs paths).Nodup) ↔ c.TokensApart :=
  ⟨tokensApart_of_nodup_jobs, fun h => h.nodup_jobs⟩

end Config

/-! ## Places of the triggers -/

theorem JobList.position?_of_not_mem {l : JobList} {t : Token} (h : t ∉ l) :
    JobList.position? l t.text = none := by
  unfold JobList.position?
  rw [List.findIdx?_eq_none_iff]
  intro u hu
  rw [beq_eq_false_iff_ne]
  intro he
  have hut : u = t := congrArg Token.mk he
  exact h (hut ▸ hu)

theorem JobList.position?_append_cons {l r : JobList} {t : Token} (h : t ∉ l) :
    JobList.position? (l ++ t :: r) t.text = some l.length := by
  have hl := position?_of_not_mem h
  unfold JobList.position? at hl ⊢
  rw [List.findIdx?_append, hl, List.findIdx?_cons, if_pos (beq_self_eq_true _), Option.none_or,
    Option.map_some, Nat.zero_add]

namespace Config.TokensApart

variable {c : Config}

theorem position?_dsl (h : c.TokensApart) (paths : List String) :
    (c.jobs paths).position? c.dsl.job.text =
      if paths.any c.dsl.fires then some ((c.jobs paths).length - 1) else none := by
  have hbefore : c.dsl.job ∉ c.registry.crates.filterMap (crateJob? paths c.registry.root) ++
      (triggerJob? paths c.native).toList := by
    rw [List.mem_append]
    intro hm
    rcases hm with hm | hm
    · exact h.not_mem_crates (List.mem_cons_of_mem _ List.mem_cons_self) hm
    · exact h.native_ne_dsl (eq_job_of_mem_triggerJob? hm).symm
  rw [jobs_eq, ← List.append_assoc, triggerJob?_eq_ite paths c.dsl]
  generalize c.registry.crates.filterMap (crateJob? paths c.registry.root) ++
    (triggerJob? paths c.native).toList = before at hbefore ⊢
  by_cases hf : paths.any c.dsl.fires = true
  · rw [if_pos hf, if_pos hf]
    show JobList.position? (before ++ [c.dsl.job]) _ = some ((before ++ [c.dsl.job]).length - 1)
    rw [JobList.position?_append_cons hbefore, List.length_append, List.length_singleton,
      Nat.add_sub_cancel]
  · rw [if_neg hf, if_neg hf, Option.toList_none, List.append_nil,
      JobList.position?_of_not_mem hbefore]

theorem position?_native (h : c.TokensApart) (paths : List String) :
    (c.jobs paths).position? c.native.job.text =
      if paths.any c.native.fires then
        some ((c.jobs paths).length - if paths.any c.dsl.fires then 2 else 1)
      else none := by
  have hcrates : c.native.job ∉ c.registry.crates.filterMap (crateJob? paths c.registry.root) :=
    h.not_mem_crates List.mem_cons_self
  rw [jobs_eq, triggerJob?_eq_ite paths c.native]
  generalize c.registry.crates.filterMap (crateJob? paths c.registry.root) = crates at hcrates ⊢
  by_cases hf : paths.any c.native.fires = true
  · rw [if_pos hf, if_pos hf]
    show JobList.position? (crates ++ c.native.job :: (triggerJob? paths c.dsl).toList) _ =
      some ((crates ++ c.native.job :: (triggerJob? paths c.dsl).toList).length - _)
    rw [JobList.position?_append_cons hcrates, List.length_append, List.length_cons,
      triggerJob?_eq_ite]
    by_cases hd : paths.any c.dsl.fires = true
    · rw [if_pos hd, if_pos hd, Option.toList_some, List.length_singleton, Nat.add_sub_cancel]
    · rw [if_neg hd, if_neg hd, Option.toList_none, List.length_nil, Nat.add_sub_cancel]
  · rw [if_neg hf, if_neg hf, Option.toList_none, List.nil_append]
    refine JobList.position?_of_not_mem fun hm => ?_
    rcases List.mem_append.mp hm with hm | hm
    · exact hcrates hm
    · exact h.native_ne_dsl (eq_job_of_mem_triggerJob? hm)

end Config.TokensApart

/-! ## The catalog -/

theorem Catalog.tokensApart_config : Catalog.config.TokensApart where
  native_ne_dsl := by decide
  ne_testOnly := by decide +kernel
  ne_full := by
    have h : ∀ n ∈ Catalog.crates, ∀ t ∈ Catalog.config.triggers, t.job ≠ Token.full n := by
      decide +kernel
    intro n hn t ht he
    exact absurd he (h n hn t ht)

/-- A configuration repeats no token, for any paths, exactly if its triggers stay apart.
The crates never repeat one, although two of them can have the same token as a text.
The catalog stays apart, so its triggers close the list in their order. -/
theorem nodup_jobs_iff :
    (∀ c : Config, (∀ paths, (c.jobs paths).Nodup) ↔ c.TokensApart) ∧
    (∀ (r : Registry) (paths : List String),
      (r.crates.filterMap (crateJob? paths r.root)).Nodup) ∧
    (∀ name, Token.testOnly name = Token.full (name ++ "-test-only")) ∧
    Catalog.config.TokensApart ∧
    ∀ paths, (Catalog.config.jobs paths).Nodup ∧
      (Catalog.config.jobs paths).position? Catalog.dsl.job.text =
        (if paths.any Catalog.dsl.fires then some ((Catalog.config.jobs paths).length - 1)
        else none) ∧
      (Catalog.config.jobs paths).position? Catalog.native.job.text =
        if paths.any Catalog.native.fires then
          some ((Catalog.config.jobs paths).length - if paths.any Catalog.dsl.fires then 2 else 1)
        else none := by
  have hapart := Catalog.tokensApart_config
  refine ⟨fun c => Config.nodup_jobs_iff_tokensApart, nodup_filterMap_crateJob?,
    fun name => (Token.full_eq_testOnly_iff.mpr rfl).symm, hapart, fun paths => ?_⟩
  exact ⟨hapart.nodup_jobs paths, hapart.position?_dsl paths, hapart.position?_native paths⟩

end ChangeImpact
