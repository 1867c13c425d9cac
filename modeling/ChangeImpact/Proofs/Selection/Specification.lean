/-
Which matches a selection consists of.

A selection is found by searching the paths twice for each crate and once for
each trigger.  Here the outcome is said without a search: `CrateVerdict` and
`TriggerVerdict` state by decompositions of the paths which match one crate and
one trigger get, and `Selected` puts the verdicts in order.  These rules admit
exactly one list, the one that is selected, and every way to ask for the jobs
reads them off it.  Configurations are not restricted: every registry is one that
passes its check, by `Registry.ofNames_root_crates`.
-/
import ChangeImpact.Report.Basic

namespace ChangeImpact

/-! ## Paths -/

/-- The path begins with the root and the name of a crate. -/
def LiesBelow (root name path : String) : Prop :=
  ∃ rest, path = root ++ name ++ rest

/-- The test marker stands somewhere in the path. -/
def SpeaksOfTests (path : String) : Prop :=
  ∃ front back, path = front ++ "test" ++ back

def EndsIn (suffix path : String) : Prop :=
  ∃ front, path = front ++ suffix

/-- `p` is the earliest of the paths that have the property `P`. -/
def IsFirst (P : String → Prop) (paths : List String) (p : String) : Prop :=
  ∃ before after, paths = before ++ p :: after ∧ P p ∧ ∀ q ∈ before, ¬ P q

theorem isBelow_eq_true_iff {root name path : String} :
    isBelow (root ++ name) path = true ↔ LiesBelow root name path := by
  rw [isBelow_iff]
  constructor
  · intro h
    obtain ⟨rest, h⟩ := h
    refine ⟨String.ofList rest, String.toList_inj.mp ?_⟩
    rw [String.toList_append, String.toList_ofList, h]
  · intro h
    obtain ⟨rest, rfl⟩ := h
    exact ⟨rest.toList, String.toList_append.symm⟩

theorem mentionsTest_eq_true_iff {path : String} :
    mentionsTest path = true ↔ SpeaksOfTests path := by
  rw [mentionsTest_iff, testMarker]
  constructor
  · intro h
    obtain ⟨front, back, h⟩ := h
    refine ⟨String.ofList front, String.ofList back, String.toList_inj.mp ?_⟩
    simp [← h]
  · intro h
    obtain ⟨front, back, rfl⟩ := h
    refine ⟨front.toList, back.toList, ?_⟩
    rw [String.toList_append, String.toList_append]

theorem fires_eq_true_iff {t : Trigger} {path : String} :
    t.fires path = true ↔ EndsIn t.suffix path := by
  rw [Trigger.fires_iff]
  constructor
  · intro h
    obtain ⟨front, h⟩ := h
    refine ⟨String.ofList front, String.toList_inj.mp ?_⟩
    rw [String.toList_append, String.toList_ofList, h]
  · intro h
    obtain ⟨front, rfl⟩ := h
    rw [String.toList_append]
    exact List.suffix_append _ _

/-- A search gives the earliest path that passes its test. -/
theorem find?_eq_some_iff_isFirst {f : String → Bool} {P : String → Prop}
    (hf : ∀ q, f q = true ↔ P q) {paths : List String} {p : String} :
    paths.find? f = some p ↔ IsFirst P paths p := by
  rw [List.find?_eq_some_iff_append, hf]
  constructor
  · intro h
    obtain ⟨hp, before, after, rfl, hb⟩ := h
    refine ⟨before, after, rfl, hp, fun q hq => ?_⟩
    rw [← hf]
    simpa using hb q hq
  · intro h
    obtain ⟨before, after, rfl, hp, hb⟩ := h
    refine ⟨hp, before, after, rfl, fun q hq => ?_⟩
    have := hb q hq
    rw [← hf] at this
    simpa using this

theorem find?_eq_none_iff_forall {f : String → Bool} {P : String → Prop}
    (hf : ∀ q, f q = true ↔ P q) {paths : List String} :
    paths.find? f = none ↔ ∀ q ∈ paths, ¬ P q := by
  rw [List.find?_eq_none]
  exact forall₂_congr fun q _ => not_congr (hf q)

/-! ## Verdicts -/

/-- The match that one crate gets.  A path that does not speak of tests calls for
the full job, whatever the paths before it are. -/
inductive CrateVerdict (paths : List String) (root name : String) : Option Match → Prop
  | full {p : String} :
      IsFirst (fun q => LiesBelow root name q ∧ ¬ SpeaksOfTests q) paths p →
      CrateVerdict paths root name (some ⟨⟨"-" ++ name ++ "-"⟩, .crate, some name, p⟩)
  | testOnly {p : String} :
      (∀ q ∈ paths, LiesBelow root name q → SpeaksOfTests q) →
      IsFirst (LiesBelow root name) paths p →
      CrateVerdict paths root name (some ⟨⟨"-" ++ name ++ "-test-only-"⟩, .testOnly, some name, p⟩)
  | untouched :
      (∀ q ∈ paths, ¬ LiesBelow root name q) →
      CrateVerdict paths root name none

/-- The match that one trigger gets. -/
inductive TriggerVerdict (paths : List String) (t : Trigger) : Option Match → Prop
  | fired {p : String} :
      IsFirst (EndsIn t.suffix) paths p →
      TriggerVerdict paths t (some ⟨t.job, .trigger, none, p⟩)
  | silent :
      (∀ q ∈ paths, ¬ EndsIn t.suffix q) →
      TriggerVerdict paths t none

/-- The matches among the verdicts on a list of candidates, in their order. -/
inductive Collected {α : Type} (Verdict : α → Option Match → Prop) :
    List α → List Match → Prop
  | nil : Collected Verdict [] []
  | found {a : α} {m : Match} {as : List α} {ms : List Match} :
      Verdict a (some m) → Collected Verdict as ms → Collected Verdict (a :: as) (m :: ms)
  | nothing {a : α} {as : List α} {ms : List Match} :
      Verdict a none → Collected Verdict as ms → Collected Verdict (a :: as) ms

/-- The matches of a selection: those of the crates in registry order, then those of
the native trigger and of the other one. -/
def Selected (c : Config) (paths : List String) (ms : List Match) : Prop :=
  ∃ ofCrates ofTriggers,
    Collected (CrateVerdict paths c.registry.root) c.registry.crates ofCrates ∧
    Collected (TriggerVerdict paths) [c.native, c.dsl] ofTriggers ∧
    ms = ofCrates ++ ofTriggers

theorem crateVerdict_crateMatch? (paths : List String) (root name : String) :
    CrateVerdict paths root name (crateMatch? paths root name) := by
  have hfull : ∀ q, (isBelow (root ++ name) q && !mentionsTest q) = true ↔
      LiesBelow root name q ∧ ¬ SpeaksOfTests q := by
    intro q
    rw [Bool.and_eq_true, isBelow_eq_true_iff, Bool.not_eq_true', ← Bool.not_eq_true,
      mentionsTest_eq_true_iff]
  have hbelow : ∀ q, isBelow (root ++ name) q = true ↔ LiesBelow root name q :=
    fun q => isBelow_eq_true_iff
  unfold crateMatch?
  split
  · next p hp => exact .full ((find?_eq_some_iff_isFirst hfull).mp hp)
  · next hnone =>
    rw [find?_eq_none_iff_forall hfull] at hnone
    cases hb : paths.find? fun p => isBelow (root ++ name) p with
    | none => exact .untouched ((find?_eq_none_iff_forall hbelow).mp hb)
    | some p =>
      refine .testOnly (fun q hq hl => ?_) ((find?_eq_some_iff_isFirst hbelow).mp hb)
      by_cases ht : SpeaksOfTests q
      · exact ht
      · exact absurd ⟨hl, ht⟩ (hnone q hq)

theorem triggerVerdict_triggerMatch? (paths : List String) (t : Trigger) :
    TriggerVerdict paths t (triggerMatch? paths t) := by
  have hends : ∀ q, t.fires q = true ↔ EndsIn t.suffix q := fun q => fires_eq_true_iff
  unfold triggerMatch?
  cases hp : paths.find? fun p => t.fires p with
  | none => exact .silent ((find?_eq_none_iff_forall hends).mp hp)
  | some p => exact .fired ((find?_eq_some_iff_isFirst hends).mp hp)

/-! ## Verdicts are unique -/

theorem IsFirst.unique {P : String → Prop} {paths : List String} {p q : String}
    (hp : IsFirst P paths p) (hq : IsFirst P paths q) : p = q := by
  classical
  have hf : ∀ r, decide (P r) = true ↔ P r := fun r => decide_eq_true_iff
  have h₁ := (find?_eq_some_iff_isFirst hf).mpr hp
  have h₂ := (find?_eq_some_iff_isFirst hf).mpr hq
  rw [h₁] at h₂
  exact Option.some.inj h₂

theorem IsFirst.mem {P : String → Prop} {paths : List String} {p : String}
    (h : IsFirst P paths p) : p ∈ paths := by
  obtain ⟨before, after, rfl, -, -⟩ := h
  exact List.mem_append_right _ List.mem_cons_self

theorem IsFirst.holds {P : String → Prop} {paths : List String} {p : String}
    (h : IsFirst P paths p) : P p := by
  obtain ⟨-, -, -, hp, -⟩ := h
  exact hp

theorem CrateVerdict.unique {paths : List String} {root name : String} {o o' : Option Match}
    (h : CrateVerdict paths root name o) (h' : CrateVerdict paths root name o') : o = o' := by
  cases h with
  | full hp =>
    cases h' with
    | full hq => rw [hp.unique hq]
    | testOnly hall hq => exact absurd (hall _ hp.mem hp.holds.1) hp.holds.2
    | untouched hnone => exact absurd hp.holds.1 (hnone _ hp.mem)
  | testOnly hall hp =>
    cases h' with
    | full hq => exact absurd (hall _ hq.mem hq.holds.1) hq.holds.2
    | testOnly _ hq => rw [hp.unique hq]
    | untouched hnone => exact absurd hp.holds (hnone _ hp.mem)
  | untouched hnone =>
    cases h' with
    | full hq => exact absurd hq.holds.1 (hnone _ hq.mem)
    | testOnly _ hq => exact absurd hq.holds (hnone _ hq.mem)
    | untouched => rfl

theorem TriggerVerdict.unique {paths : List String} {t : Trigger} {o o' : Option Match}
    (h : TriggerVerdict paths t o) (h' : TriggerVerdict paths t o') : o = o' := by
  cases h with
  | fired hp =>
    cases h' with
    | fired hq => rw [hp.unique hq]
    | silent hnone => exact absurd hp.holds (hnone _ hp.mem)
  | silent hnone =>
    cases h' with
    | fired hq => exact absurd hq.holds (hnone _ hq.mem)
    | silent => rfl

theorem crateMatch?_eq_iff {paths : List String} {root name : String} {o : Option Match} :
    crateMatch? paths root name = o ↔ CrateVerdict paths root name o := by
  constructor
  · intro h
    rw [← h]
    exact crateVerdict_crateMatch? paths root name
  · intro h
    exact (crateVerdict_crateMatch? paths root name).unique h

theorem triggerMatch?_eq_iff {paths : List String} {t : Trigger} {o : Option Match} :
    triggerMatch? paths t = o ↔ TriggerVerdict paths t o := by
  constructor
  · intro h
    rw [← h]
    exact triggerVerdict_triggerMatch? paths t
  · intro h
    exact (triggerVerdict_triggerMatch? paths t).unique h

/-- Where a function gives the verdicts, filtering with it collects the matches. -/
theorem filterMap_eq_iff_collected {α : Type} {f : α → Option Match}
    {Verdict : α → Option Match → Prop} (hf : ∀ a o, f a = o ↔ Verdict a o)
    {as : List α} {ms : List Match} : as.filterMap f = ms ↔ Collected Verdict as ms := by
  constructor
  · intro h
    rw [← h]
    clear h
    induction as with
    | nil => exact .nil
    | cons a as ih =>
      cases ha : f a with
      | none =>
        rw [List.filterMap_cons_none ha]
        exact .nothing ((hf a none).mp ha) ih
      | some m =>
        rw [List.filterMap_cons_some ha]
        exact .found ((hf a (some m)).mp ha) ih
  · intro h
    induction h with
    | nil => rfl
    | found hv _ ih => rw [List.filterMap_cons_some ((hf _ _).mpr hv), ih]
    | nothing hv _ ih => rw [List.filterMap_cons_none ((hf _ _).mpr hv), ih]

theorem select_eq_iff {c : Config} {paths : List String} {ms : List Match} :
    c.select paths = ms ↔ Selected c paths ms := by
  have hcrates : ∀ n o, crateMatch? paths c.registry.root n = o ↔
      CrateVerdict paths c.registry.root n o := fun n o => crateMatch?_eq_iff
  have htriggers : ∀ t o, triggerMatch? paths t = o ↔ TriggerVerdict paths t o :=
    fun t o => triggerMatch?_eq_iff
  unfold Config.select Config.triggers
  constructor
  · intro h
    rw [← h]
    exact ⟨_, _, (filterMap_eq_iff_collected hcrates).mp rfl,
      (filterMap_eq_iff_collected htriggers).mp rfl, rfl⟩
  · intro h
    obtain ⟨ofCrates, ofTriggers, hc, ht, rfl⟩ := h
    rw [(filterMap_eq_iff_collected hcrates).mpr hc, (filterMap_eq_iff_collected htriggers).mpr ht]

theorem Config.mem_select_iff {c : Config} {paths : List String} {m : Match} :
    m ∈ c.select paths ↔
      (∃ n ∈ c.registry.crates, CrateVerdict paths c.registry.root n (some m)) ∨
        ∃ t ∈ c.triggers, TriggerVerdict paths t (some m) := by
  rw [Config.select, List.mem_append, List.mem_filterMap, List.mem_filterMap]
  simp only [crateMatch?_eq_iff, triggerMatch?_eq_iff]

/-- A match names one of the changed paths. -/
theorem Config.path_mem_of_mem_select {c : Config} {paths : List String} {m : Match}
    (h : m ∈ c.select paths) : m.path ∈ paths := by
  rcases mem_select_iff.mp h with ⟨n, -, hv⟩ | ⟨t, -, hv⟩
  · cases hv with
    | full hp => exact hp.mem
    | testOnly _ hp => exact hp.mem
  · cases hv with
    | fired hp => exact hp.mem

/-! ## The ways to ask for a selection -/

theorem filterMap_crateJob?_append_triggerJob? (c : Config) (paths : List String) :
    c.registry.crates.filterMap (crateJob? paths c.registry.root) ++
        c.triggers.filterMap (triggerJob? paths) = c.jobs paths := by
  unfold Config.jobs Config.select
  rw [List.map_append, List.map_filterMap, List.map_filterMap]
  rfl

/-- The selected list is the one that the rules admit, and the selector, the report and
the searches for single jobs give its jobs in its order. -/
theorem select_eq_iff_selected (c : Config) (paths : ChangeSet) :
    (∀ ms, c.select paths = ms ↔ Selected c paths ms) ∧
    c.jobs paths = (c.select paths).map Match.job ∧
    (Selector.mk c).explain paths = c.select paths ∧
    (Selector.mk c).select paths = (c.select paths).map Match.job ∧
    (∀ tool, (Report.ofMatches tool ((Selector.mk c).explain paths)).jobs =
        (c.select paths).map Match.job ∧
      (Report.ofMatches tool ((Selector.mk c).explain paths)).found = c.select paths) ∧
    c.registry.crates.filterMap (crateJob? paths c.registry.root) ++
        [c.native, c.dsl].filterMap (triggerJob? paths) = (c.select paths).map Match.job :=
  ⟨fun _ => select_eq_iff, rfl, rfl, rfl, fun _ => ⟨rfl, rfl⟩,
    filterMap_crateJob?_append_triggerJob? c paths⟩

end ChangeImpact
