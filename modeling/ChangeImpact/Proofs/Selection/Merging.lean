/-
The selection for a list of paths that is put together from parts.

The matches for `as ++ bs` follow from the matches for `as` and those for `bs`, without
the paths.  Each entry keeps the match of the first part and takes that of the second
only where the first has none, with one exception: a full match of the second part takes
the place of a test-only match of the first.  `Config.merge` does this on two lists of
matches, and `select_append_eq_merge` says that it gives the selection for the whole, so
a selection can be carried along part by part.

The match of a crate is found by its name.  A trigger leaves no name in its match, the
two triggers may have one job, and one path may have both endings, so their matches are
told apart by their places: that of the native trigger stands first.
-/
import ChangeImpact.Proofs.Selection.Entries

namespace ChangeImpact

variable {as bs : List String}

/-! ## First paths of two parts -/

section

variable {P : String → Prop} {p : String}

theorem IsFirst.append_right (h : IsFirst P as p) (bs : List String) : IsFirst P (as ++ bs) p := by
  obtain ⟨before, after, rfl, hp, hbefore⟩ := h
  exact ⟨before, after ++ bs, by rw [List.append_assoc, List.cons_append], hp, hbefore⟩

theorem IsFirst.append_left (h : IsFirst P bs p) (hnone : ∀ q ∈ as, ¬ P q) :
    IsFirst P (as ++ bs) p := by
  obtain ⟨before, after, rfl, hp, hbefore⟩ := h
  exact ⟨as ++ before, after, (List.append_assoc ..).symm, hp,
    List.forall_mem_append.mpr ⟨hnone, hbefore⟩⟩

end

/-! ## Verdicts of two parts -/

/-- Whether the match of a crate is there and is for the full job. -/
def isFull (o : Option Match) : Bool :=
  o.any fun m => m.kind == .crate

theorem isFull_some_iff {m : Match} : isFull (some m) = true ↔ m.kind = .crate :=
  beq_iff_eq

/-- The match of a crate from its matches for two parts: the first full one, or else the
first one. -/
def preferFull (a b : Option Match) : Option Match :=
  if isFull a then a else if isFull b then b else a.or b

/-- A first match is kept, or it is not full and gives way to a full one. -/
theorem preferFull_some_cases (m : Match) (b : Option Match) :
    preferFull (some m) b = some m ∨ m.kind ≠ .crate ∧ ∃ m', b = some m' ∧ m'.kind = .crate ∧
      preferFull (some m) b = some m' := by
  unfold preferFull
  by_cases hm : isFull (some m) = true
  · exact .inl (if_pos hm)
  · rw [if_neg hm]
    by_cases hb : isFull b = true
    · rw [if_pos hb]
      cases b with
      | none => cases hb
      | some m' =>
        exact .inr ⟨fun hk => hm (isFull_some_iff.mpr hk), m', rfl, isFull_some_iff.mp hb, rfl⟩
    · exact .inl (if_neg hb)

theorem CrateVerdict.append {root name : String} {a b : Option Match}
    (ha : CrateVerdict as root name a) (hb : CrateVerdict bs root name b) :
    CrateVerdict (as ++ bs) root name (preferFull a b) := by
  cases ha with
  | full hp => exact .full (hp.append_right bs)
  | testOnly hall hp =>
    -- No path of the first part is below the crate without speaking of tests.
    have hnone : ∀ q ∈ as, ¬ (LiesBelow root name q ∧ ¬ SpeaksOfTests q) :=
      fun q hq h => h.2 (hall q hq h.1)
    cases hb with
    | full hq => exact .full (hq.append_left hnone)
    | testOnly hall' _ =>
      exact .testOnly (List.forall_mem_append.mpr ⟨hall, hall'⟩) (hp.append_right bs)
    | untouched hnone' =>
      exact .testOnly (List.forall_mem_append.mpr ⟨hall, fun q hq h => absurd h (hnone' q hq)⟩)
        (hp.append_right bs)
  | untouched hnone =>
    cases hb with
    | full hq => exact .full (hq.append_left fun q hq' h => hnone q hq' h.1)
    | testOnly hall hq =>
      exact .testOnly (List.forall_mem_append.mpr ⟨fun q hq' h => absurd h (hnone q hq'), hall⟩)
        (hq.append_left hnone)
    | untouched hnone' => exact .untouched (List.forall_mem_append.mpr ⟨hnone, hnone'⟩)

theorem TriggerVerdict.append {t : Trigger} {a b : Option Match}
    (ha : TriggerVerdict as t a) (hb : TriggerVerdict bs t b) :
    TriggerVerdict (as ++ bs) t (a.or b) := by
  cases ha with
  | fired hp => exact .fired (hp.append_right bs)
  | silent hnone =>
    cases hb with
    | fired hq => exact .fired (hq.append_left hnone)
    | silent hnone' => exact .silent (List.forall_mem_append.mpr ⟨hnone, hnone'⟩)

theorem crateMatch?_append (as bs : List String) (root name : String) :
    crateMatch? (as ++ bs) root name =
      preferFull (crateMatch? as root name) (crateMatch? bs root name) :=
  crateMatch?_eq_iff.mpr
    ((crateVerdict_crateMatch? as root name).append (crateVerdict_crateMatch? bs root name))

theorem triggerMatch?_append (as bs : List String) (t : Trigger) :
    triggerMatch? (as ++ bs) t = (triggerMatch? as t).or (triggerMatch? bs t) :=
  triggerMatch?_eq_iff.mpr
    ((triggerVerdict_triggerMatch? as t).append (triggerVerdict_triggerMatch? bs t))

/-! ## Matches of the triggers -/

/-- Whether a match may be one of the trigger, by its kind and its path. -/
def Trigger.mayCause (t : Trigger) (m : Match) : Bool :=
  m.kind == .trigger && t.fires m.path

namespace Config

variable {c : Config} {paths : List String} {m : Match}

/-- The match of the native trigger in the matches of a selection. -/
def ofNative? (c : Config) (ms : List Match) : Option Match :=
  ms.find? c.native.mayCause

/-- The match of the other trigger, which stands last if it is there. -/
def ofDsl? (c : Config) (ms : List Match) : Option Match :=
  ms.reverse.find? c.dsl.mayCause

theorem mayCause_of_triggerVerdict {t : Trigger} (h : TriggerVerdict paths t (some m)) :
    t.mayCause m = true := by
  cases h with
  | fired hp => exact Bool.and_eq_true_iff.mpr ⟨rfl, fires_eq_true_iff.mpr hp.holds⟩

theorem not_mayCause_of_crateVerdict {t : Trigger} {root name : String}
    (h : CrateVerdict paths root name (some m)) : ¬ t.mayCause m = true := by
  intro hm
  exact h.kind_ne_trigger (eq_of_beq (Bool.and_eq_true_iff.mp hm).1)

/-- A trigger that no path fires has caused no match of the selection. -/
theorem not_mayCause_of_silent {t : Trigger} (h : TriggerVerdict paths t none)
    (hm : m ∈ c.select paths) : ¬ t.mayCause m = true := by
  intro hcause
  cases h with
  | silent hnone =>
    exact hnone m.path (path_mem_of_mem_select hm)
      (fires_eq_true_iff.mp (Bool.and_eq_true_iff.mp hcause).2)

theorem select_eq (c : Config) (paths : List String) :
    c.select paths = c.registry.crates.filterMap (crateMatch? paths c.registry.root) ++
      ((triggerMatch? paths c.native).toList ++ (triggerMatch? paths c.dsl).toList) := by
  rw [select, filterMap_triggers]

theorem ofNative?_select (c : Config) (paths : List String) :
    c.ofNative? (c.select paths) = triggerMatch? paths c.native := by
  have hv := triggerVerdict_triggerMatch? paths c.native
  cases hm : triggerMatch? paths c.native with
  | none =>
    rw [hm] at hv
    exact List.find?_eq_none.mpr fun x hx => not_mayCause_of_silent hv hx
  | some m =>
    rw [hm] at hv
    have hcrates : (c.registry.crates.filterMap (crateMatch? paths c.registry.root)).find?
        c.native.mayCause = none := by
      refine List.find?_eq_none.mpr fun x hx => ?_
      obtain ⟨n, -, hn⟩ := List.mem_filterMap.mp hx
      exact not_mayCause_of_crateVerdict (crateMatch?_eq_iff.mp hn)
    rw [ofNative?, select_eq, hm, List.find?_append, hcrates, Option.none_or, Option.toList_some,
      List.singleton_append, List.find?_cons_of_pos (mayCause_of_triggerVerdict hv)]

theorem ofDsl?_select (c : Config) (paths : List String) :
    c.ofDsl? (c.select paths) = triggerMatch? paths c.dsl := by
  have hv := triggerVerdict_triggerMatch? paths c.dsl
  cases hm : triggerMatch? paths c.dsl with
  | none =>
    rw [hm] at hv
    refine List.find?_eq_none.mpr fun x hx => ?_
    exact not_mayCause_of_silent hv (List.mem_reverse.mp hx)
  | some m =>
    rw [hm] at hv
    rw [ofDsl?, select_eq, hm, ← List.append_assoc, Option.toList_some, List.reverse_append,
      List.reverse_singleton, List.singleton_append,
      List.find?_cons_of_pos (mayCause_of_triggerVerdict hv)]

/-! ## Merging matches -/

/-- The matches for two parts put together, entry by entry. -/
def merge (c : Config) (ms ns : List Match) : List Match :=
  (c.registry.crates.filterMap fun name => preferFull (ofCrate? ms name) (ofCrate? ns name)) ++
    (((c.ofNative? ms).or (c.ofNative? ns)).toList ++ ((c.ofDsl? ms).or (c.ofDsl? ns)).toList)

theorem ofCrate?_select_append (c : Config) (as bs : List String) (name : String) :
    ofCrate? (c.select (as ++ bs)) name =
      preferFull (ofCrate? (c.select as) name) (ofCrate? (c.select bs) name) := by
  by_cases hn : name ∈ c.registry.crates
  · rw [ofCrate?_select hn, ofCrate?_select hn, ofCrate?_select hn, crateMatch?_append]
  · rw [ofCrate?_select_of_not_mem hn, ofCrate?_select_of_not_mem hn,
      ofCrate?_select_of_not_mem hn]
    rfl

theorem ofNative?_select_append (c : Config) (as bs : List String) :
    c.ofNative? (c.select (as ++ bs)) =
      (c.ofNative? (c.select as)).or (c.ofNative? (c.select bs)) := by
  rw [ofNative?_select, ofNative?_select, ofNative?_select, triggerMatch?_append]

theorem ofDsl?_select_append (c : Config) (as bs : List String) :
    c.ofDsl? (c.select (as ++ bs)) = (c.ofDsl? (c.select as)).or (c.ofDsl? (c.select bs)) := by
  rw [ofDsl?_select, ofDsl?_select, ofDsl?_select, triggerMatch?_append]

theorem select_append (c : Config) (as bs : List String) :
    c.select (as ++ bs) = c.merge (c.select as) (c.select bs) := by
  rw [merge, ← ofNative?_select_append, ← ofDsl?_select_append, ofNative?_select, ofDsl?_select,
    select_eq]
  congr 1
  refine List.filterMap_congr fun name hn => ?_
  rw [← ofCrate?_select_append, ofCrate?_select hn]

theorem select_nil (c : Config) : c.select [] = [] :=
  List.eq_nil_iff_forall_not_mem.mpr fun _ hm => List.not_mem_nil (path_mem_of_mem_select hm)

theorem foldl_merge_select (c : Config) (done : List String) (parts : List (List String)) :
    (parts.map c.select).foldl c.merge (c.select done) = c.select (done ++ parts.flatten) := by
  induction parts generalizing done with
  | nil => rw [List.flatten_nil, List.append_nil, List.map_nil, List.foldl_nil]
  | cons part parts ih =>
    rw [List.map_cons, List.foldl_cons, ← select_append, ih, List.flatten_cons,
      List.append_assoc]

theorem select_flatten (c : Config) (parts : List (List String)) :
    c.select parts.flatten = (parts.map c.select).foldl c.merge [] := by
  have h := c.foldl_merge_select [] parts
  rw [select_nil, List.nil_append] at h
  exact h.symm

/-- What becomes of a match when paths are appended: only a test-only match can go, and
only for the full match of its crate. -/
theorem mem_select_append (hm : m ∈ c.select as) (bs : List String) :
    m ∈ c.select (as ++ bs) ∨ m.kind = .testOnly ∧ ∃ m' ∈ c.select bs,
      m' ∈ c.select (as ++ bs) ∧ m'.crateName = m.crateName ∧ m'.kind = .crate := by
  rcases mem_select_iff.mp hm with ⟨n, hn, hv⟩ | ⟨t, ht, hv⟩
  · have happ := hv.append (crateVerdict_crateMatch? bs c.registry.root n)
    rcases preferFull_some_cases m (crateMatch? bs c.registry.root n) with hkept | hleft
    · rw [hkept] at happ
      exact .inl (mem_select_iff.mpr (.inl ⟨n, hn, happ⟩))
    · obtain ⟨hk, m', hm', hk', hnew⟩ := hleft
      rw [hnew] at happ
      have hb := crateMatch?_eq_iff.mp hm'
      have htests : m.kind = .testOnly := by
        rcases hv.job_cases with ⟨hfull, -⟩ | ⟨htests, -⟩
        · exact absurd hfull hk
        · exact htests
      have hname : m'.crateName = m.crateName := by rw [hb.crateName_eq, hv.crateName_eq]
      exact .inr ⟨htests, m', mem_select_iff.mpr (.inl ⟨n, hn, hb⟩),
        mem_select_iff.mpr (.inl ⟨n, hn, happ⟩), hname, hk'⟩
  · have happ := hv.append (triggerVerdict_triggerMatch? bs t)
    exact .inl (mem_select_iff.mpr (.inr ⟨t, ht, happ⟩))

end Config

/-- The selection for two lists of paths is merged from the selections for each, entry by
entry, where the entries of a selection are read off its matches.  So matches only come
and stay as paths are appended, except that a test-only match gives way to a full one of
its crate, and the selection for many parts is built up part by part. -/
theorem select_append_eq_merge (c : Config) (as bs : ChangeSet) :
    (∀ paths, (∀ name m, ofCrate? (c.select paths) name = some m ↔
        m ∈ c.select paths ∧ m.crateName = some name) ∧
      c.ofNative? (c.select paths) = triggerMatch? paths c.native ∧
      c.ofDsl? (c.select paths) = triggerMatch? paths c.dsl) ∧
    (∀ name, ofCrate? (c.select (as ++ bs)) name =
      preferFull (ofCrate? (c.select as) name) (ofCrate? (c.select bs) name)) ∧
    c.ofNative? (c.select (as ++ bs)) =
      (c.ofNative? (c.select as)).or (c.ofNative? (c.select bs)) ∧
    c.ofDsl? (c.select (as ++ bs)) = (c.ofDsl? (c.select as)).or (c.ofDsl? (c.select bs)) ∧
    c.select (as ++ bs) = c.merge (c.select as) (c.select bs) ∧
    (∀ m ∈ c.select as, m ∈ c.select (as ++ bs) ∨ m.kind = .testOnly ∧ ∃ m' ∈ c.select bs,
      m' ∈ c.select (as ++ bs) ∧ m'.crateName = m.crateName ∧ m'.kind = .crate) ∧
    ∀ parts : List ChangeSet, c.select parts.flatten = (parts.map c.select).foldl c.merge [] := by
  refine ⟨fun paths => ⟨fun name m => Config.ofCrate?_select_eq_some_iff,
    c.ofNative?_select paths, c.ofDsl?_select paths⟩, c.ofCrate?_select_append as bs,
    c.ofNative?_select_append as bs, c.ofDsl?_select_append as bs, c.select_append as bs,
    fun m hm => ?_, c.select_flatten⟩
  exact Config.mem_select_append hm bs

/-- A test of the parser is changed first and its source after that: the test-only match
gives way, and the match of the trigger keeps its path. -/
theorem select_append_eq_merge_tests :
    let c : Config := ⟨⟨"crates/", ["parser", "runner"], by decide, by decide⟩,
      Catalog.native, Catalog.dsl⟩
    let as : ChangeSet := ["crates/parser/tests/a.rs"]
    let bs : ChangeSet := ["crates/parser/b.rs"]
    let light : Match :=
      ⟨⟨"-parser-test-only-"⟩, .testOnly, some "parser", "crates/parser/tests/a.rs"⟩
    let rust : Match := ⟨⟨"-rust-"⟩, .trigger, none, "crates/parser/tests/a.rs"⟩
    c.select as = [light, rust] ∧ rust ∈ c.select (as ++ bs) ∧
      ∃ m' ∈ c.select (as ++ bs), m'.crateName = some "parser" ∧ m'.kind = .crate := by
  intro c as bs light rust
  have has : c.select as = [light, rust] := by decide +kernel
  have hlight : light ∈ c.select as := by rw [has]; exact List.mem_cons_self
  have hrust : rust ∈ c.select as := by rw [has]; decide
  obtain ⟨-, -, -, -, -, hstay, -⟩ := select_append_eq_merge c as bs
  refine ⟨has, ?_, ?_⟩
  · rcases hstay rust hrust with hm | hgone
    · exact hm
    · exact absurd hgone.1 (by decide)
  · have hgone : light ∉ c.select (as ++ bs) := by decide +kernel
    obtain ⟨-, m', -, hm', hname, hk⟩ := (hstay light hlight).resolve_left hgone
    exact ⟨m', hm', hname, hk⟩

end ChangeImpact
