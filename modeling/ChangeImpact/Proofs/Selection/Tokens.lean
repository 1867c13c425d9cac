/-
What a token tells about the selection that it came from.

A consumer sees tokens and no crates.  The test-only token of `a` and the full token
of `a-test-only` are the same text, yet only the first is ever given, so the token of
a crate's match names the crate and the kind, whatever registry it was selected by.
A test-only token therefore says that the crate changed and that all its changes are
tests, unless a trigger was given that token for its own.
-/
import ChangeImpact.Proofs.Selection.Distinct

namespace ChangeImpact

variable {paths : List String} {root name : String} {m : Match}

theorem CrateVerdict.crateName_eq (h : CrateVerdict paths root name (some m)) :
    m.crateName = some name := by
  cases h with
  | full _ => rfl
  | testOnly _ _ => rfl

theorem CrateVerdict.kind_ne_trigger (h : CrateVerdict paths root name (some m)) :
    m.kind ≠ .trigger := by
  cases h with
  | full _ => show Kind.crate ≠ .trigger; decide
  | testOnly _ _ => show Kind.testOnly ≠ .trigger; decide

theorem TriggerVerdict.kind_eq {t : Trigger} (h : TriggerVerdict paths t (some m)) :
    m.kind = .trigger := by
  cases h with
  | fired _ => rfl

theorem TriggerVerdict.job_eq {t : Trigger} (h : TriggerVerdict paths t (some m)) :
    m.job = t.job := by
  cases h with
  | fired _ => rfl

namespace Config

variable {c : Config}

/-- A match of another kind than a trigger's is the match of a registered crate. -/
theorem exists_crateVerdict (hm : m ∈ c.select paths) (hk : m.kind ≠ .trigger) :
    ∃ n ∈ c.registry.crates, CrateVerdict paths c.registry.root n (some m) := by
  rcases mem_select_iff.mp hm with hcrate | ⟨t, -, htrigger⟩
  · exact hcrate
  · exact absurd htrigger.kind_eq hk

/-! ## Crates of which only tests changed -/

/-- A registered crate changed, and no path of it is without the test marker. -/
structure OnlyTestsChanged (c : Config) (paths : List String) (name : String) : Prop where
  registered : name ∈ c.registry.crates
  changed : ∃ p ∈ paths, LiesBelow c.registry.root name p
  tests : ∀ p ∈ paths, LiesBelow c.registry.root name p → SpeaksOfTests p

theorem onlyTestsChanged_of_crateVerdict (hn : name ∈ c.registry.crates)
    (h : CrateVerdict paths c.registry.root name (some m)) (hk : m.kind = .testOnly) :
    c.OnlyTestsChanged paths name := by
  cases h with
  | full _ => exact absurd hk (show Kind.crate ≠ .testOnly by decide)
  | testOnly hall hp => exact ⟨hn, ⟨_, hp.mem, hp.holds⟩, hall⟩

/-- The test-only token of a name is given to the crate of that name alone. -/
theorem onlyTestsChanged_of_job (hm : m ∈ c.select paths) (hk : m.kind ≠ .trigger)
    (hjob : m.job = Token.testOnly name) :
    m.crateName = some name ∧ m.kind = .testOnly ∧ c.OnlyTestsChanged paths name := by
  obtain ⟨n, hn, hv⟩ := exists_crateVerdict hm hk
  rcases hv.job_cases with ⟨-, hfull, hnot⟩ | ⟨hkind, htest⟩
  · -- A full token of this form needs a crate whose own name speaks of tests.
    rw [hjob] at hfull
    have hname : n = name ++ "-test-only" := Token.full_eq_testOnly_iff.mp hfull.symm
    rw [hname] at hnot
    exact absurd (speaksOfTests_append_testOnly _ _) hnot
  · have hname : name = n := Token.testOnly_injective (hjob.symm.trans htest)
    rw [hname]
    exact ⟨hv.crateName_eq, hkind, onlyTestsChanged_of_crateVerdict hn hv hkind⟩

/-- A crate named like the test-only token of another one never gets a full job. -/
theorem kind_ne_crate_of_crateName (hm : m ∈ c.select paths)
    (hname : m.crateName = some (name ++ "-test-only")) : m.kind ≠ .crate := by
  intro hk
  have hne : m.kind ≠ .trigger := by rw [hk]; decide
  obtain ⟨n, -, hv⟩ := exists_crateVerdict hm hne
  have hn : n = name ++ "-test-only" := Option.some.inj (hv.crateName_eq.symm.trans hname)
  rcases hv.job_cases with ⟨-, -, hnot⟩ | ⟨htest, -⟩
  · rw [hn] at hnot
    exact hnot (speaksOfTests_append_testOnly _ _)
  · rw [hk] at htest
    exact absurd htest (by decide)

theorem onlyTestsChanged_of_mem_jobs (hmem : Token.testOnly name ∈ c.jobs paths)
    (hapart : ∀ t ∈ c.triggers, t.job ≠ Token.testOnly name) :
    c.OnlyTestsChanged paths name := by
  obtain ⟨m, hm, hjob⟩ := List.mem_map.mp hmem
  refine (onlyTestsChanged_of_job hm ?_ hjob).2.2
  rcases mem_select_iff.mp hm with ⟨n, -, hv⟩ | ⟨t, ht, hv⟩
  · exact hv.kind_ne_trigger
  · exact absurd (hv.job_eq.symm.trans hjob) (hapart t ht)

end Config

/-- The tokens of the catalog's triggers are too short to be test-only tokens. -/
theorem Catalog.job_ne_testOnly {t : Trigger} (ht : t ∈ config.triggers) (name : String) :
    t.job ≠ Token.testOnly name := by
  have hshort : ∀ t ∈ config.triggers, t.job.text.length ≤ 7 := by decide
  have hlong : (Token.testOnly name).text.length = 1 + name.length + 11 := by
    show ("-" ++ name ++ "-test-only-").length = _
    rw [String.length_append, String.length_append]
    rfl
  intro he
  have hle := hshort t ht
  rw [he, hlong] at hle
  omega

/-- In any two selections, matches of crates with the same token belong to crates of the
same name and are of the same kind.  A test-only token tells that the named crate had
changes and none but of tests, and never stands for a full change of a crate that has
the rest of the token in its name. -/
theorem crateName_and_kind_of_job :
    (∀ (c c' : Config) (paths paths' : ChangeSet) (m m' : Match),
      m ∈ c.select paths → m' ∈ c'.select paths' → m.kind ≠ .trigger → m'.kind ≠ .trigger →
      m.job = m'.job →
        (∃ n, m.crateName = some n ∧ m'.crateName = some n) ∧ m.kind = m'.kind) ∧
    (∀ (c : Config) (paths : ChangeSet) (m : Match) (x : String),
      m ∈ c.select paths → m.kind ≠ .trigger → m.job = Token.testOnly x →
        m.crateName = some x ∧ m.kind = .testOnly ∧ c.OnlyTestsChanged paths x) ∧
    (∀ (c : Config) (paths : ChangeSet) (x : String),
      Token.testOnly x ∈ c.jobs paths → (∀ t ∈ c.triggers, t.job ≠ Token.testOnly x) →
        c.OnlyTestsChanged paths x) ∧
    (∀ (paths : ChangeSet) (x : String), Token.testOnly x ∈ Catalog.config.jobs paths →
      Catalog.config.OnlyTestsChanged paths x) ∧
    ∀ (c : Config) (paths : ChangeSet) (m : Match) (x : String),
      m ∈ c.select paths → m.crateName = some (x ++ "-test-only") → m.kind ≠ .crate := by
  refine ⟨?_, ?_, ?_, ?_, ?_⟩
  · intro c c' paths paths' m m' hm hm' hk hk' hjob
    obtain ⟨n, -, hv⟩ := Config.exists_crateVerdict hm hk
    obtain ⟨n', -, hv'⟩ := Config.exists_crateVerdict hm' hk'
    obtain ⟨hname, hkind⟩ := hv.eq_of_job_eq hv' hjob
    refine ⟨⟨n, hv.crateName_eq, ?_⟩, hkind⟩
    rw [hname]
    exact hv'.crateName_eq
  · intro c paths m x hm hk hjob
    exact Config.onlyTestsChanged_of_job hm hk hjob
  · intro c paths x hmem hapart
    exact Config.onlyTestsChanged_of_mem_jobs hmem hapart
  · intro paths x hmem
    exact Config.onlyTestsChanged_of_mem_jobs hmem fun t ht => Catalog.job_ne_testOnly ht x
  · intro c paths m x hm hname
    exact Config.kind_ne_crate_of_crateName hm hname

/-- The crates `a` and `a-test-only` are registered together, and a second registry has
`a` below another root.  The one token that both selections share is that of `a`. -/
theorem crateName_and_kind_of_job_a :
    let c : Config := ⟨⟨"crates/", ["a-test-only", "a"], by decide, by decide⟩,
      Catalog.native, Catalog.dsl⟩
    let c' : Config := ⟨⟨"src/", ["a"], by decide, by decide⟩, Catalog.native, Catalog.dsl⟩
    let m : Match := ⟨⟨"-a-test-only-"⟩, .testOnly, some "a", "crates/a-test-only/lib.rs"⟩
    let m' : Match := ⟨⟨"-a-test-only-"⟩, .testOnly, some "a", "src/a/test.rs"⟩
    m ∈ c.select ["crates/a-test-only/lib.rs"] ∧ m' ∈ c'.select ["src/a/test.rs"] ∧
      m.job = m'.job ∧ (∃ n, m.crateName = some n ∧ m'.crateName = some n) ∧
      m.kind = m'.kind ∧ c.OnlyTestsChanged ["crates/a-test-only/lib.rs"] "a" ∧
      Catalog.config.OnlyTestsChanged ["crates/cairo-lang-parser/tests/a.rs"] "parser" := by
  intro c c' m m'
  have hm : m ∈ c.select ["crates/a-test-only/lib.rs"] := by decide +kernel
  have hm' : m' ∈ c'.select ["src/a/test.rs"] := by decide +kernel
  have hcatalog : Token.testOnly "parser" ∈
      Catalog.config.jobs ["crates/cairo-lang-parser/tests/a.rs"] := by decide +kernel
  obtain ⟨hshared, hsingle, -, hlist, -⟩ := crateName_and_kind_of_job
  have hsame := hshared c c' _ _ m m' hm hm' (by decide) (by decide) rfl
  have hname := hsingle c _ m "a" hm (by decide) rfl
  exact ⟨hm, hm', rfl, hsame.1, hsame.2, hname.2.2, hlist _ _ hcatalog⟩

end ChangeImpact
