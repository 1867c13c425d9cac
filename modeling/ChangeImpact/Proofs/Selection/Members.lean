/-
A selection depends on the changed paths as a set.

Each verdict asks whether some path has a property, and only the path it records is the
first of them.  So the order of the paths and their repetitions can change which path a
match names, and nothing else: the jobs, their kinds, their crates and their order stay.
-/
import ChangeImpact.Proofs.Selection.Entries

namespace ChangeImpact

/-- A match without the path that caused it. -/
def Match.withoutPath (m : Match) : Token × Kind × Option String :=
  (m.job, m.kind, m.crateName)

variable {paths paths' : List String}

theorem IsFirst.exists_of_mem_iff {P : String → Prop} {p : String} (h : IsFirst P paths p)
    (hsame : ∀ p, p ∈ paths ↔ p ∈ paths') : ∃ q, IsFirst P paths' q :=
  exists_isFirst ((hsame p).mp h.mem) h.holds

theorem CrateVerdict.exists_of_mem_iff {root name : String} {o : Option Match}
    (h : CrateVerdict paths root name o) (hsame : ∀ p, p ∈ paths ↔ p ∈ paths') :
    ∃ o', CrateVerdict paths' root name o' ∧
      o'.map Match.withoutPath = o.map Match.withoutPath := by
  cases h with
  | full hp =>
    obtain ⟨q, hq⟩ := hp.exists_of_mem_iff hsame
    exact ⟨_, .full hq, rfl⟩
  | testOnly hall hp =>
    obtain ⟨q, hq⟩ := hp.exists_of_mem_iff hsame
    exact ⟨_, .testOnly (fun r hr => hall r ((hsame r).mpr hr)) hq, rfl⟩
  | untouched hnone =>
    exact ⟨none, .untouched fun r hr => hnone r ((hsame r).mpr hr), rfl⟩

theorem TriggerVerdict.exists_of_mem_iff {t : Trigger} {o : Option Match}
    (h : TriggerVerdict paths t o) (hsame : ∀ p, p ∈ paths ↔ p ∈ paths') :
    ∃ o', TriggerVerdict paths' t o' ∧
      o'.map Match.withoutPath = o.map Match.withoutPath := by
  cases h with
  | fired hp =>
    obtain ⟨q, hq⟩ := hp.exists_of_mem_iff hsame
    exact ⟨_, .fired hq, rfl⟩
  | silent hnone =>
    exact ⟨none, .silent fun r hr => hnone r ((hsame r).mpr hr), rfl⟩

theorem crateMatch?_withoutPath (hsame : ∀ p, p ∈ paths ↔ p ∈ paths') (root name : String) :
    (crateMatch? paths root name).map Match.withoutPath =
      (crateMatch? paths' root name).map Match.withoutPath := by
  obtain ⟨o, hv, ho⟩ := (crateVerdict_crateMatch? paths root name).exists_of_mem_iff hsame
  rw [crateMatch?_eq_iff.mpr hv, ho]

theorem triggerMatch?_withoutPath (hsame : ∀ p, p ∈ paths ↔ p ∈ paths') (t : Trigger) :
    (triggerMatch? paths t).map Match.withoutPath =
      (triggerMatch? paths' t).map Match.withoutPath := by
  obtain ⟨o, hv, ho⟩ := (triggerVerdict_triggerMatch? paths t).exists_of_mem_iff hsame
  rw [triggerMatch?_eq_iff.mpr hv, ho]

theorem Config.map_withoutPath_select (c : Config) (hsame : ∀ p, p ∈ paths ↔ p ∈ paths') :
    (c.select paths).map Match.withoutPath = (c.select paths').map Match.withoutPath := by
  rw [select, select, List.map_append, List.map_append, List.map_filterMap, List.map_filterMap,
    List.map_filterMap, List.map_filterMap,
    funext (crateMatch?_withoutPath hsame c.registry.root),
    funext (triggerMatch?_withoutPath hsame)]

theorem Config.jobs_eq_map_withoutPath (c : Config) (paths : List String) :
    c.jobs paths = ((c.select paths).map Match.withoutPath).map Prod.fst := by
  rw [List.map_map]
  rfl

/-- Two change sets with the same members select the same jobs, of the same kinds and
crates, in the same order; the jobs are those of the matches.  The recorded paths may
differ, and each is a member. -/
theorem jobs_eq_of_mem_iff (c : Config) (paths paths' : ChangeSet)
    (hsame : ∀ p, p ∈ paths ↔ p ∈ paths') :
    c.jobs paths = c.jobs paths' ∧
    (∀ given, c.jobs given = (c.select given).map Match.job) ∧
    (c.select paths).map Match.withoutPath = (c.select paths').map Match.withoutPath ∧
    ∀ m, m ∈ c.select paths ∨ m ∈ c.select paths' → m.path ∈ paths ∧ m.path ∈ paths' := by
  have hselect := c.map_withoutPath_select hsame
  refine ⟨?_, fun _ => rfl, hselect, fun m hm => ?_⟩
  · rw [c.jobs_eq_map_withoutPath paths, c.jobs_eq_map_withoutPath paths', hselect]
  · rcases hm with hm | hm
    · have hp := Config.path_mem_of_mem_select hm
      exact ⟨hp, (hsame _).mp hp⟩
    · have hp := Config.path_mem_of_mem_select hm
      exact ⟨(hsame _).mpr hp, hp⟩

/-- Three paths in another order and one of them twice: the matches record other paths, and
the jobs stay. -/
theorem jobs_eq_of_mem_iff_reordered :
    let c : Config := ⟨⟨"crates/", ["parser", "runner"], by decide, by decide⟩,
      Catalog.native, Catalog.dsl⟩
    let paths : ChangeSet := ["crates/parser/tests/a.rs", "crates/parser/b.rs",
      "crates/parser/c.rs"]
    let paths' : ChangeSet := ["crates/parser/c.rs", "crates/parser/b.rs", "crates/parser/c.rs",
      "crates/parser/tests/a.rs"]
    (∀ p, p ∈ paths ↔ p ∈ paths') ∧ c.select paths ≠ c.select paths' ∧
      c.jobs paths = [⟨"-parser-"⟩, ⟨"-rust-"⟩] ∧
      c.jobs paths' = [⟨"-parser-"⟩, ⟨"-rust-"⟩] ∧
      (c.select paths).map Match.withoutPath = (c.select paths').map Match.withoutPath ∧
      "crates/parser/c.rs" ∈ paths := by
  intro c paths paths'
  have hsame : ∀ p, p ∈ paths ↔ p ∈ paths' := by
    intro p
    simp only [paths, paths', List.mem_cons, List.not_mem_nil, or_false]
    tauto
  obtain ⟨hsamejobs, -, hselect, hpaths⟩ := jobs_eq_of_mem_iff c paths paths' hsame
  let m : Match := ⟨⟨"-parser-"⟩, .crate, some "parser", "crates/parser/c.rs"⟩
  have hm : m ∈ c.select paths' := by decide +kernel
  have hjobs : c.jobs paths = [⟨"-parser-"⟩, ⟨"-rust-"⟩] := by decide +kernel
  exact ⟨hsame, by decide +kernel, hjobs, hsamejobs.symm.trans hjobs, hselect,
    (hpaths m (.inr hm)).1⟩

end ChangeImpact
