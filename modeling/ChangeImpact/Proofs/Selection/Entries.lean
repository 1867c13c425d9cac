/-
The match of one crate in a selection.

A match carries the name of its crate, and no name comes twice, so a list of matches can
be searched for the match of a crate.  In a selection the search finds what the verdict
on the crate says.  Whether a crate gets a job, and whether it gets the full one, is read
off the changed paths without their order.
-/
import ChangeImpact.Proofs.Selection.Tokens

namespace ChangeImpact

variable {paths : List String} {root name : String} {m : Match}

/-- Where some path has a property, one of them is the earliest to have it. -/
theorem exists_isFirst {P : String → Prop} {p : String} (hp : p ∈ paths) (h : P p) :
    ∃ q, IsFirst P paths q := by
  induction paths with
  | nil => exact absurd hp List.not_mem_nil
  | cons r rest ih =>
    by_cases hr : P r
    · exact ⟨r, [], rest, rfl, hr, fun q hq => absurd hq List.not_mem_nil⟩
    · have hrest : p ∈ rest := by
        rcases List.mem_cons.mp hp with he | hrest
        · rw [he] at h
          exact absurd h hr
        · exact hrest
      obtain ⟨q, before, after, he, hq, hbefore⟩ := ih hrest
      rw [he]
      exact ⟨q, r :: before, after, rfl, hq, List.forall_mem_cons.mpr ⟨hr, hbefore⟩⟩

/-! ## When a crate has a match -/

theorem exists_crateVerdict_iff :
    (∃ m, CrateVerdict paths root name (some m)) ↔ ∃ p ∈ paths, LiesBelow root name p := by
  constructor
  · intro h
    obtain ⟨m, hv⟩ := h
    cases hv with
    | full hp => exact ⟨_, hp.mem, hp.holds.1⟩
    | testOnly _ hp => exact ⟨_, hp.mem, hp.holds⟩
  · intro h
    obtain ⟨p, hp, hbelow⟩ := h
    have hv := crateVerdict_crateMatch? paths root name
    cases hm : crateMatch? paths root name with
    | none =>
      rw [hm] at hv
      cases hv with
      | untouched hnone => exact absurd hbelow (hnone p hp)
    | some m =>
      rw [hm] at hv
      exact ⟨m, hv⟩

theorem CrateVerdict.kind_eq_crate_iff (h : CrateVerdict paths root name (some m)) :
    m.kind = .crate ↔ ∃ p ∈ paths, LiesBelow root name p ∧ ¬ SpeaksOfTests p := by
  cases h with
  | full hp => exact ⟨fun _ => ⟨_, hp.mem, hp.holds⟩, fun _ => rfl⟩
  | testOnly hall _ =>
    constructor
    · intro hk
      cases hk
    · intro hex
      obtain ⟨p, hp, hbelow, hnot⟩ := hex
      exact absurd (hall p hp hbelow) hnot

theorem CrateVerdict.job_of_kind (h : CrateVerdict paths root name (some m))
    (hk : m.kind = .crate) : m.job = Token.full name := by
  cases h with
  | full _ => rfl
  | testOnly _ _ => cases hk

theorem TriggerVerdict.crateName_eq {t : Trigger} (h : TriggerVerdict paths t (some m)) :
    m.crateName = none := by
  cases h with
  | fired _ => rfl

/-! ## Matches by the names of their crates -/

/-- The match of a crate in a list of matches. -/
def ofCrate? (ms : List Match) (name : String) : Option Match :=
  ms.find? fun m => m.crateName == some name

namespace Config

variable {c : Config}

theorem mem_select_and_crateName_iff :
    m ∈ c.select paths ∧ m.crateName = some name ↔
      name ∈ c.registry.crates ∧ CrateVerdict paths c.registry.root name (some m) := by
  constructor
  · intro h
    obtain ⟨hm, hname⟩ := h
    rcases mem_select_iff.mp hm with ⟨n, hn, hv⟩ | ⟨t, -, hv⟩
    · have he : n = name := Option.some.inj (hv.crateName_eq.symm.trans hname)
      rw [he] at hn hv
      exact ⟨hn, hv⟩
    · rw [hv.crateName_eq] at hname
      cases hname
  · intro h
    exact ⟨mem_select_iff.mpr (.inl ⟨name, h⟩), h.2.crateName_eq⟩

theorem ofCrate?_select_eq_some_iff :
    ofCrate? (c.select paths) name = some m ↔
      m ∈ c.select paths ∧ m.crateName = some name := by
  have hfound : ∀ x, ofCrate? (c.select paths) name = some x →
      x ∈ c.select paths ∧ x.crateName = some name := by
    intro x hx
    have hname := List.find?_some hx
    exact ⟨List.mem_of_find?_eq_some hx, eq_of_beq hname⟩
  constructor
  · exact hfound m
  · intro h
    cases hx : ofCrate? (c.select paths) name with
    | none => exact absurd (beq_iff_eq.mpr h.2) (List.find?_eq_none.mp hx m h.1)
    | some x =>
      have hvx := (mem_select_and_crateName_iff.mp (hfound x hx)).2
      exact hvx.unique (mem_select_and_crateName_iff.mp h).2

/-- In a selection the search for a registered crate finds what the crate is given. -/
theorem ofCrate?_select (hn : name ∈ c.registry.crates) :
    ofCrate? (c.select paths) name = crateMatch? paths c.registry.root name := by
  refine Option.ext fun m => ?_
  rw [ofCrate?_select_eq_some_iff, mem_select_and_crateName_iff, crateMatch?_eq_iff,
    and_iff_right hn]

theorem ofCrate?_select_of_not_mem (hn : name ∉ c.registry.crates) :
    ofCrate? (c.select paths) name = none := by
  refine Option.eq_none_iff_forall_ne_some.mpr fun m hm => ?_
  rw [ofCrate?_select_eq_some_iff, mem_select_and_crateName_iff] at hm
  exact hn hm.1

/-- The crates of a selection stand in registry order, each once. -/
theorem filterMap_crateName_select :
    (c.select paths).filterMap Match.crateName =
      c.registry.crates.filter fun n => (crateMatch? paths c.registry.root n).isSome := by
  have hcrates : ∀ n, (crateMatch? paths c.registry.root n).bind Match.crateName =
      Option.guard (fun n => (crateMatch? paths c.registry.root n).isSome) n := by
    intro n
    cases hm : crateMatch? paths c.registry.root n with
    | none => simp [Option.guard, hm]
    | some m => simp [Option.guard, hm, (crateMatch?_eq_iff.mp hm).crateName_eq]
  have htriggers : ∀ t, (triggerMatch? paths t).bind Match.crateName = none := by
    intro t
    cases hm : triggerMatch? paths t with
    | none => rfl
    | some m => exact (triggerMatch?_eq_iff.mp hm).crateName_eq
  rw [select, List.filterMap_append, List.filterMap_filterMap, List.filterMap_filterMap,
    funext hcrates, funext htriggers, List.filterMap_eq_filter, List.filterMap_none,
    List.append_nil]

theorem countP_crateName_le_one (c : Config) (paths : List String) (name : String) :
    (c.select paths).countP (fun m => m.crateName == some name) ≤ 1 := by
  rw [← List.count_filterMap, filterMap_crateName_select]
  exact List.nodup_iff_count_le_one.mp (c.registry.nodup.filter _) name

/-! ## Crates with a job -/

/-- The selection for the paths has a job of the crate. -/
def GetsJob (c : Config) (paths : List String) (name : String) : Prop :=
  ∃ m ∈ c.select paths, m.crateName = some name

/-- The selection for the paths has the full job of the crate. -/
def GetsFullJob (c : Config) (paths : List String) (name : String) : Prop :=
  ∃ m ∈ c.select paths, m.crateName = some name ∧ m.kind = .crate ∧ m.job = Token.full name

theorem getsJob_iff :
    c.GetsJob paths name ↔
      name ∈ c.registry.crates ∧ ∃ p ∈ paths, LiesBelow c.registry.root name p := by
  rw [← exists_crateVerdict_iff, ← exists_and_left]
  exact exists_congr fun m => mem_select_and_crateName_iff

theorem getsFullJob_iff :
    c.GetsFullJob paths name ↔ name ∈ c.registry.crates ∧
      ∃ p ∈ paths, LiesBelow c.registry.root name p ∧ ¬ SpeaksOfTests p := by
  constructor
  · intro h
    obtain ⟨m, hm, hname, hk, -⟩ := h
    obtain ⟨hn, hv⟩ := mem_select_and_crateName_iff.mp ⟨hm, hname⟩
    exact ⟨hn, hv.kind_eq_crate_iff.mp hk⟩
  · intro h
    obtain ⟨hn, p, hp, hbelow, hnot⟩ := h
    obtain ⟨m, hv⟩ := exists_crateVerdict_iff.mpr ⟨p, hp, hbelow⟩
    have hk : m.kind = .crate := hv.kind_eq_crate_iff.mpr ⟨p, hp, hbelow, hnot⟩
    obtain ⟨hm, hname⟩ := mem_select_and_crateName_iff.mpr ⟨hn, hv⟩
    exact ⟨m, hm, hname, hk, hv.job_of_kind hk⟩

end Config

end ChangeImpact
