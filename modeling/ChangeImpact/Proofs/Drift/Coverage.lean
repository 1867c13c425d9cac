/-
A clean drift leaves no crate on disk without its jobs.

The drift check and the selection read the root of a registry in two ways.  The check
cuts it at its last slash, lists the place in front of the slash and takes the rest of
the root off the names it finds there; the selection puts root and name together and
compares beginnings of paths.  `RootCut` states the cut without a search, and below it
both readings name the same paths, so a short name found on disk is either reported as
unregistered or selected whenever a path in its directory changes.
-/
import Mathlib.Data.List.TakeWhile
import ChangeImpact.Files.Lookup
import ChangeImpact.Proofs.Selection.Entries

namespace ChangeImpact

namespace Registry

/-! ## Cutting a root -/

/-- How a root is cut: at its last slash, or not at all if it has none. -/
inductive RootCut : String → Option String → String → Prop
  | slash {place start : String} :
      '/' ∉ start.toList → RootCut (place ++ "/" ++ start) (some place) start
  | whole {start : String} :
      '/' ∉ start.toList → RootCut start none start

theorem ne_slash_iff {s : List Char} :
    (∀ c ∈ s.reverse, decide (c ≠ '/') = true) ↔ '/' ∉ s := by
  constructor
  · intro h hm
    exact absurd rfl (of_decide_eq_true (h '/' (List.mem_reverse.mpr hm)))
  · intro h c hc
    refine decide_eq_true fun he => ?_
    rw [List.mem_reverse, he] at hc
    exact h hc

theorem RootCut.splitRoot_eq {root start : String} {place : Option String}
    (h : RootCut root place start) : splitRoot root = (place, start) := by
  cases h with
  | @slash place _ hstart =>
    have hrev : (place ++ "/" ++ start).toList.reverse =
        start.toList.reverse ++ '/' :: place.toList.reverse := by
      rw [String.toList_append, String.toList_append, List.reverse_append, List.reverse_append]
      rfl
    have hpass := ne_slash_iff.mpr hstart
    rw [splitRoot, hrev, List.takeWhile_append_of_pos hpass, List.dropWhile_append_of_pos hpass,
      List.takeWhile_cons_of_neg (by decide), List.dropWhile_cons_of_neg (by decide)]
    simp
  | whole hstart =>
    have hpass := ne_slash_iff.mpr hstart
    rw [splitRoot, List.takeWhile_eq_self_iff.mpr hpass, List.dropWhile_eq_nil_iff.mpr hpass,
      List.reverse_reverse, String.ofList_toList]

theorem exists_rootCut (root : String) : ∃ place start, RootCut root place start := by
  by_cases h : '/' ∈ root.toList
  · -- The last slash is the first one from behind.
    obtain ⟨back, front, hsplit, hback⟩ := List.eq_append_cons_of_mem (List.mem_reverse.mpr h)
    have hroot : root =
        String.ofList front.reverse ++ "/" ++ String.ofList back.reverse := by
      refine String.toList_inj.mp ?_
      rw [String.toList_append, String.toList_append, String.toList_ofList,
        String.toList_ofList, ← List.reverse_reverse root.toList, hsplit, List.reverse_append,
        List.reverse_cons, String.toList_ofList]
    refine ⟨some (String.ofList front.reverse), String.ofList back.reverse, ?_⟩
    rw [hroot]
    refine .slash ?_
    rw [String.toList_ofList, List.mem_reverse]
    exact hback
  · exact ⟨none, root, .whole h⟩

/-- There is one way to cut a root. -/
theorem rootCut_iff {root start : String} {place : Option String} :
    RootCut root place start ↔ place = (splitRoot root).1 ∧ start = (splitRoot root).2 := by
  constructor
  · intro h
    rw [h.splitRoot_eq]
    exact ⟨rfl, rfl⟩
  · intro h
    obtain ⟨place', start', hcut⟩ := exists_rootCut root
    rw [hcut.splitRoot_eq] at h
    rw [h.1, h.2]
    exact hcut

theorem start_shelf {root start : String} {place : Option String} (h : RootCut root place start)
    (below : String) : (shelf below root).start = start := by
  rw [shelf, h.splitRoot_eq]
  cases place with
  | none => rfl
  | some _ => rfl

/-- A path that begins with an entry of a place, or with the entry alone if there is
no place to name. -/
def pathThrough (place : Option String) (entry rest : String) : String :=
  match place with
  | some place => place ++ "/" ++ entry ++ rest
  | none => entry ++ rest

theorem RootCut.pathThrough_eq {root start : String} {place : Option String}
    (h : RootCut root place start) (name rest : String) :
    pathThrough place (start ++ name) rest = root ++ name ++ rest := by
  cases h with
  | slash _ => simp only [pathThrough, String.append_assoc]
  | whole _ => rfl

end Registry

/-! ## Crates on disk -/

theorem Entry.shortName?_eq_some_iff {start n : String} {e : Entry} :
    e.shortName? start = some n ↔ n ≠ "" ∧ e.isDirectory = true ∧ e.name = start ++ n := by
  have hname : ∀ r : List Char, Text.dropWord? start.toList e.name.toList = some r ↔
      e.name = start ++ String.ofList r := by
    intro r
    rw [Text.dropWord?_eq_some_iff, ← String.toList_inj, String.toList_append,
      String.toList_ofList]
  unfold shortName?
  by_cases hd : e.isDirectory = true
  · rw [if_pos hd]
    constructor
    · intro h
      split at h
      · next c r hr =>
        obtain rfl := Option.some.inj h
        refine ⟨?_, hd, (hname _).mp hr⟩
        intro he
        rw [← String.toList_eq_nil_iff, String.toList_ofList] at he
        cases he
      · cases h
    · intro h
      obtain ⟨hne, -, he⟩ := h
      have hdrop : Text.dropWord? start.toList e.name.toList = some n.toList := by
        rw [hname, String.ofList_toList]
        exact he
      cases hn : n.toList with
      | nil => exact absurd (String.toList_eq_nil_iff.mp hn) hne
      | cons c r =>
        rw [hdrop, hn]
        show some (String.ofList (c :: r)) = some n
        rw [← hn, String.ofList_toList]
  · rw [if_neg hd]
    constructor
    · intro h
      cases h
    · intro h
      exact absurd h.2.1 hd

theorem mem_discover_iff {start n : String} {entries : List Entry} :
    n ∈ discover start entries ↔
      n ≠ "" ∧ ∃ e ∈ entries, e.isDirectory = true ∧ e.name = start ++ n := by
  rw [discover, ascending, List.mem_mergeSort, List.mem_filterMap]
  simp only [Entry.shortName?_eq_some_iff]
  constructor
  · intro h
    obtain ⟨e, he, hne, hfound⟩ := h
    exact ⟨hne, e, he, hfound⟩
  · intro h
    obtain ⟨hne, e, he, hfound⟩ := h
    exact ⟨e, he, hne, hfound⟩

theorem Drift.mem_unregistered_iff {r : Registry} {found : List String} {n : String} :
    n ∈ (ofNames r found).unregistered ↔ n ∈ found ∧ n ∉ r.crates := by
  rw [ofNames, List.mem_filter, decide_eq_true_iff]

theorem Drift.mem_crates_of_isClean {r : Registry} {found : List String}
    (h : (ofNames r found).isClean = true) {n : String} (hn : n ∈ found) : n ∈ r.crates := by
  by_cases hr : n ∈ r.crates
  · exact hr
  · rw [isClean, Bool.and_eq_true, List.isEmpty_iff, List.isEmpty_iff] at h
    have hm := mem_unregistered_iff.mpr ⟨hn, hr⟩
    rw [h.2] at hm
    exact absurd hm List.not_mem_nil

/-! ## Jobs of the crates on disk -/

/-- Whenever a path below the crate changes, the crate has a match with one of its own
jobs. -/
theorem Config.exists_match_of_liesBelow {c : Config} {paths : List String} {name path : String}
    (hn : name ∈ c.registry.crates) (hp : path ∈ paths)
    (hbelow : LiesBelow c.registry.root name path) :
    ∃ m ∈ c.select paths, m.crateName = some name ∧
      (m.job = Token.full name ∨ m.job = Token.testOnly name) := by
  obtain ⟨m, hv⟩ := exists_crateVerdict_iff.mpr ⟨path, hp, hbelow⟩
  refine ⟨m, Config.mem_select_iff.mpr (.inl ⟨name, hn, hv⟩), hv.crateName_eq, ?_⟩
  rcases hv.job_cases with ⟨-, hfull, -⟩ | ⟨-, htest⟩
  · exact .inl hfull
  · exact .inr htest

/-- Every change set with a path through the entry of the crate has a match of the crate. -/
def Config.Covers (c : Config) (place : Option String) (entry name : String) : Prop :=
  ∀ (paths : ChangeSet) (rest : String), Registry.pathThrough place entry rest ∈ paths →
    ∃ m ∈ c.select paths, m.crateName = some name ∧
      (m.job = Token.full name ∨ m.job = Token.testOnly name)

theorem Config.covers_of_registered {c : Config} {place : Option String} {start name : String}
    (hcut : Registry.RootCut c.registry.root place start) (hn : name ∈ c.registry.crates) :
    c.Covers place (start ++ name) name := by
  intro paths rest hp
  exact c.exists_match_of_liesBelow hn hp ⟨rest, hcut.pathThrough_eq name rest⟩

/-- The check finds the crates that the listing has directories for, and reports those that
are not registered.  Each of them is reported, or every change in its directory selects a
job for it; so after a clean check no change in any of these directories is without a job. -/
theorem covers_of_mem_discover (c : Config) (below : String) (entries : List Entry) :
    ∃ place start, (∀ place' start', Registry.RootCut c.registry.root place' start' ↔
        place' = place ∧ start' = start) ∧
      ∃ found d, (Registry.shelf below c.registry.root).crates (some entries) = .ok found ∧
        c.registry.drift (Registry.shelf below c.registry.root) (some entries) = .ok d ∧
        (∀ n, n ∈ found ↔
          n ≠ "" ∧ ∃ e ∈ entries, e.isDirectory = true ∧ e.name = start ++ n) ∧
        (∀ n, n ∈ d.unregistered ↔ n ∈ found ∧ n ∉ c.registry.crates) ∧
        (∀ n ∈ found, n ∈ d.unregistered ∨ c.Covers place (start ++ n) n) ∧
        (d.isClean = true → ∀ n ∈ found, c.Covers place (start ++ n) n) := by
  obtain ⟨place, start, hcut⟩ := Registry.exists_rootCut c.registry.root
  have hshelf : (Registry.shelf below c.registry.root).crates (some entries) =
      .ok (discover start entries) := by
    rw [Registry.Shelf.crates, Registry.start_shelf hcut]
  refine ⟨place, start, fun place' start' => ?_, discover start entries,
    .ofNames c.registry (discover start entries), hshelf, ?_, fun n => mem_discover_iff,
    fun n => Drift.mem_unregistered_iff, fun n hn => ?_, fun hclean n hn => ?_⟩
  · rw [Registry.rootCut_iff, hcut.splitRoot_eq]
  · rw [Registry.drift, hshelf]
    rfl
  · by_cases hr : n ∈ c.registry.crates
    · exact .inr (Config.covers_of_registered hcut hr)
    · exact .inl (Drift.mem_unregistered_iff.mpr ⟨hn, hr⟩)
  · exact Config.covers_of_registered hcut (Drift.mem_crates_of_isClean hclean hn)

/-- A root with two slashes, a directory that is not registered, one that is, and a file. -/
theorem covers_of_mem_discover_nested :
    let c : Config := ⟨⟨"a/b/x-", ["run"], by decide, by decide⟩, Catalog.native, Catalog.dsl⟩
    let entries : List Entry := [⟨"x-run", true⟩, ⟨"x-walk", true⟩, ⟨"x-notes", false⟩]
    ∃ d, c.registry.drift (Registry.shelf "." c.registry.root) (some entries) = .ok d ∧
      "walk" ∈ d.unregistered ∧ "run" ∉ d.unregistered ∧
      ∃ m ∈ c.select ["README.md", "a/b/x-run/test.rs"], m.crateName = some "run" := by
  intro c entries
  obtain ⟨place, start, hcut, found, d, -, hd, hfound, hunregistered, hcovers, -⟩ :=
    covers_of_mem_discover c "." entries
  have hroot : Registry.RootCut c.registry.root (some "a/b") "x-" := by
    show Registry.RootCut ("a/b" ++ "/" ++ "x-") _ _
    exact .slash (by decide)
  obtain ⟨rfl, rfl⟩ := (hcut _ _).mp hroot
  have hrun : "run" ∈ found := (hfound "run").mpr
    ⟨by decide, ⟨"x-run", true⟩, by decide, rfl, rfl⟩
  have hwalk : "walk" ∈ found := (hfound "walk").mpr
    ⟨by decide, ⟨"x-walk", true⟩, by decide, rfl, rfl⟩
  have hregistered : "run" ∉ d.unregistered :=
    fun hm => ((hunregistered "run").mp hm).2 List.mem_cons_self
  refine ⟨d, hd, (hunregistered "walk").mpr ⟨hwalk, by decide⟩, hregistered, ?_⟩
  obtain ⟨m, hm, hname, -⟩ := (hcovers "run" hrun).resolve_left hregistered
    ["README.md", "a/b/x-run/test.rs"] "/test.rs" (by decide)
  exact ⟨m, hm, hname⟩

end ChangeImpact
