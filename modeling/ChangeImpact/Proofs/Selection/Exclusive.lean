/-
When the two tokens of a crate exclude each other.

A crate gets its full job or its test-only one and never both.  As texts its two tokens
can still meet in one job list, since the full token of `m-test-only` is the test-only
token of `m`, and every path below the first crate is below the second and speaks of
tests.  As long as the triggers keep off the tokens of crates, registering two such names
is the one way to it.
-/
import ChangeImpact.Proofs.Selection.Entries

namespace ChangeImpact

namespace Config

variable {c : Config} {paths : List String} {m n : String} {x : Match}

/-- No trigger has a token that is made from a registered name. -/
structure CrateTokensReserved (c : Config) : Prop where
  ne_full : ∀ n ∈ c.registry.crates, ∀ t ∈ c.triggers, t.job ≠ Token.full n
  ne_testOnly : ∀ n ∈ c.registry.crates, ∀ t ∈ c.triggers, t.job ≠ Token.testOnly n

/-- No selection has both tokens of a registered crate. -/
def TokensExclude (c : Config) : Prop :=
  ∀ paths, ∀ n ∈ c.registry.crates,
    ¬ (Token.full n ∈ c.jobs paths ∧ Token.testOnly n ∈ c.jobs paths)

/-- How both tokens of `n` come into one selection: the crate itself has its test-only
match, and the full token is that of the test-only match of `m` and of no other match. -/
structure Clash (c : Config) (paths : List String) (n m : String) : Prop where
  registered : m ∈ c.registry.crates
  name_eq : n = m ++ "-test-only"
  own : ∃ x ∈ c.select paths,
    x.crateName = some n ∧ x.kind = .testOnly ∧ x.job = Token.testOnly n
  other : ∃ y ∈ c.select paths, y.crateName = some m ∧ y.kind = .testOnly ∧
    y.job = Token.full n ∧ ∀ z ∈ c.select paths, z.job = Token.full n → z = y

/-! ## Where tokens come from -/

theorem mem_jobs_of_crateVerdict (hn : n ∈ c.registry.crates)
    (h : CrateVerdict paths c.registry.root n (some x)) : x.job ∈ c.jobs paths :=
  List.mem_map_of_mem (mem_select_iff.mpr (.inl ⟨n, hn, h⟩))

theorem exists_crateVerdict_of_mem_jobs {k : Token} (hk : k ∈ c.jobs paths)
    (hoff : ∀ t ∈ c.triggers, t.job ≠ k) :
    ∃ n ∈ c.registry.crates, ∃ x, CrateVerdict paths c.registry.root n (some x) ∧ x.job = k := by
  obtain ⟨x, hx, hjob⟩ := List.mem_map.mp hk
  rcases mem_select_iff.mp hx with ⟨n, hn, hv⟩ | ⟨t, ht, hv⟩
  · exact ⟨n, hn, x, hv, hjob⟩
  · exact absurd (hv.job_eq.symm.trans hjob) (hoff t ht)

theorem OnlyTestsChanged.exists_crateVerdict (h : c.OnlyTestsChanged paths n) :
    ∃ x, CrateVerdict paths c.registry.root n (some x) ∧ x.kind = .testOnly ∧
      x.job = Token.testOnly n := by
  obtain ⟨x, hv⟩ := exists_crateVerdict_iff.mpr h.changed
  rcases hv.job_cases with ⟨hk, -, -⟩ | ⟨hk, hjob⟩
  · obtain ⟨p, hp, hbelow, hnot⟩ := hv.kind_eq_crate_iff.mp hk
    exact absurd (h.tests p hp hbelow) hnot
  · exact ⟨x, hv, hk, hjob⟩

theorem OnlyTestsChanged.testOnly_mem_jobs (h : c.OnlyTestsChanged paths n) :
    Token.testOnly n ∈ c.jobs paths := by
  obtain ⟨x, hv, -, hjob⟩ := h.exists_crateVerdict
  rw [← hjob]
  exact mem_jobs_of_crateVerdict h.registered hv

/-- A full token comes from the crate it is named after, or from another one that only had
tests changed. -/
theorem CrateTokensReserved.exists_of_full (h : c.CrateTokensReserved)
    (hn : n ∈ c.registry.crates) (hmem : Token.full n ∈ c.jobs paths) :
    (∃ x, CrateVerdict paths c.registry.root n (some x) ∧ x.kind = .crate) ∨
      ∃ m ∈ c.registry.crates, n = m ++ "-test-only" ∧
        ∃ y, CrateVerdict paths c.registry.root m (some y) ∧ y.kind = .testOnly ∧
          y.job = Token.full n := by
  obtain ⟨k, hk, x, hv, hjob⟩ := exists_crateVerdict_of_mem_jobs hmem (h.ne_full n hn)
  rcases hv.job_cases with ⟨hkind, hfull, -⟩ | ⟨hkind, htest⟩
  · have hname : k = n := Token.full_injective (hfull.symm.trans hjob)
    rw [hname] at hv
    exact .inl ⟨x, hv, hkind⟩
  · have hname : n = k ++ "-test-only" := Token.full_eq_testOnly_iff.mp (hjob.symm.trans htest)
    exact .inr ⟨k, hk, hname, x, hv, hkind, hjob⟩

theorem CrateTokensReserved.eq_of_full (h : c.CrateTokensReserved) (hn : n ∈ c.registry.crates)
    {y z : Match} (hy : CrateVerdict paths c.registry.root m (some y))
    (hjob : y.job = Token.full n) (hz : z ∈ c.select paths) (hz' : z.job = Token.full n) :
    z = y := by
  rcases mem_select_iff.mp hz with ⟨k, -, hv⟩ | ⟨t, ht, hv⟩
  · obtain ⟨rfl, -⟩ := hv.eq_of_job_eq hy (hz'.trans hjob.symm)
    exact Option.some.inj (hv.unique hy)
  · exact absurd (hv.job_eq.symm.trans hz') (h.ne_full n hn t ht)

/-! ## Two tokens at once -/

theorem CrateTokensReserved.exists_clash (h : c.CrateTokensReserved)
    (hn : n ∈ c.registry.crates) (hfull : Token.full n ∈ c.jobs paths)
    (htest : Token.testOnly n ∈ c.jobs paths) : ∃ m, c.Clash paths n m := by
  have hchanged := onlyTestsChanged_of_mem_jobs htest (h.ne_testOnly n hn)
  obtain ⟨x, hx, hkx, hjx⟩ := hchanged.exists_crateVerdict
  rcases h.exists_of_full hn hfull with ⟨y, hy, hky⟩ | ⟨m, hm, hname, y, hy, hky, hjy⟩
  · -- The crate has one match only, and that is no full one.
    have he : x = y := Option.some.inj (hx.unique hy)
    rw [he, hky] at hkx
    cases hkx
  · obtain ⟨hxs, hxn⟩ := mem_select_and_crateName_iff.mpr ⟨hn, hx⟩
    obtain ⟨hys, hyn⟩ := mem_select_and_crateName_iff.mpr ⟨hm, hy⟩
    exact ⟨m, hm, hname, ⟨x, hxs, hxn, hkx, hjx⟩,
      ⟨y, hys, hyn, hky, hjy, fun z hz hjz => h.eq_of_full hn hy hjy hz hjz⟩⟩

/-- A path that ends in `-test-only` speaks of tests, so it alone gives no full job to a
crate that it lies below. -/
theorem onlyTestsChanged_of_liesBelow (hm : m ∈ c.registry.crates)
    (hbelow : LiesBelow c.registry.root m (c.registry.root ++ (n ++ "-test-only"))) :
    c.OnlyTestsChanged [c.registry.root ++ (n ++ "-test-only")] m where
  registered := hm
  changed := ⟨_, List.mem_singleton_self _, hbelow⟩
  tests := by
    intro p hp _
    rw [List.mem_singleton.mp hp]
    exact speaksOfTests_append_testOnly _ _

theorem mem_jobs_of_mem_crates (hm : m ∈ c.registry.crates)
    (hn : m ++ "-test-only" ∈ c.registry.crates) :
    Token.full (m ++ "-test-only") ∈ c.jobs [c.registry.root ++ (m ++ "-test-only")] ∧
      Token.testOnly (m ++ "-test-only") ∈ c.jobs [c.registry.root ++ (m ++ "-test-only")] := by
  have hshorter : c.OnlyTestsChanged [c.registry.root ++ (m ++ "-test-only")] m :=
    onlyTestsChanged_of_liesBelow hm ⟨"-test-only", by rw [String.append_assoc]⟩
  have hlonger : c.OnlyTestsChanged [c.registry.root ++ (m ++ "-test-only")]
      (m ++ "-test-only") :=
    onlyTestsChanged_of_liesBelow hn ⟨"", by rw [String.append_empty]⟩
  rw [Token.full_eq_testOnly_iff.mpr rfl]
  exact ⟨hshorter.testOnly_mem_jobs, hlonger.testOnly_mem_jobs⟩

theorem CrateTokensReserved.exclude_iff (h : c.CrateTokensReserved) :
    c.TokensExclude ↔
      ¬ ∃ m ∈ c.registry.crates, m ++ "-test-only" ∈ c.registry.crates := by
  constructor
  · intro hexclude hpair
    obtain ⟨m, hm, hn⟩ := hpair
    exact hexclude _ _ hn (mem_jobs_of_mem_crates hm hn)
  · intro hnone paths n hn hboth
    obtain ⟨m, hclash⟩ := h.exists_clash hn hboth.1 hboth.2
    have hname := hclash.name_eq
    rw [hname] at hn
    exact hnone ⟨m, hclash.registered, hn⟩

end Config

theorem Catalog.crateTokensReserved_config : Catalog.config.CrateTokensReserved where
  ne_full := by
    show ∀ n ∈ Catalog.crates, ∀ t ∈ [Catalog.native, Catalog.dsl], t.job ≠ Token.full n
    decide +kernel
  ne_testOnly := fun _ _ _ ht => Catalog.job_ne_testOnly ht _

/-- Where the triggers keep off the tokens of crates, the two tokens of a crate exclude each
other in every selection exactly if no registered name is another one with `-test-only`
behind it.  In any case a crate has one match at most, and both tokens of a crate meet only
by the clash of such two names. -/
theorem tokensExclude_iff (c : Config) (hreserved : c.CrateTokensReserved) :
    (c.TokensExclude ↔
      ¬ ∃ m ∈ c.registry.crates, m ++ "-test-only" ∈ c.registry.crates) ∧
    ∀ (paths : ChangeSet), ∀ n ∈ c.registry.crates,
      (c.select paths).countP (fun x => x.crateName == some n) ≤ 1 ∧
      (Token.full n ∈ c.jobs paths → Token.testOnly n ∈ c.jobs paths →
        ∃ m, c.Clash paths n m) := by
  refine ⟨hreserved.exclude_iff, fun paths n hn => ⟨?_, fun hfull htest => ?_⟩⟩
  · exact c.countP_crateName_le_one paths n
  · exact hreserved.exists_clash hn hfull htest

/-- The tokens of the catalog exclude each other; those of `a` and `a-test-only` below one
root do not. -/
theorem tokensExclude_iff_nested :
    let c : Config := ⟨⟨"crates/", ["a-test-only", "a"], by decide, by decide⟩,
      Catalog.native, Catalog.dsl⟩
    let paths : ChangeSet := ["crates/a-test-only/lib.rs"]
    c.CrateTokensReserved ∧ ¬ c.TokensExclude ∧
      Token.full "a-test-only" ∈ c.jobs paths ∧ Token.testOnly "a-test-only" ∈ c.jobs paths ∧
      (∃ m, c.Clash paths "a-test-only" m) ∧
      Catalog.config.CrateTokensReserved ∧ Catalog.config.TokensExclude := by
  intro c paths
  have hreserved : c.CrateTokensReserved := ⟨by decide, by decide⟩
  obtain ⟨hiff, hclash⟩ := tokensExclude_iff c hreserved
  have hfull : Token.full "a-test-only" ∈ c.jobs paths := by decide +kernel
  have htest : Token.testOnly "a-test-only" ∈ c.jobs paths := by decide +kernel
  have hcatalog := (tokensExclude_iff Catalog.config Catalog.crateTokensReserved_config).1
  refine ⟨hreserved, fun h => hiff.mp h ⟨"a", by decide, by decide⟩, hfull, htest,
    (hclash paths "a-test-only" (by decide)).2 hfull htest,
    Catalog.crateTokensReserved_config, hcatalog.mpr ?_⟩
  show ¬ ∃ m ∈ Catalog.crates, m ++ "-test-only" ∈ Catalog.crates
  decide +kernel

end ChangeImpact
