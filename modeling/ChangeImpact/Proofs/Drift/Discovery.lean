/-
What the drift check reports, whatever the order of the listing.

The short names on disk are put in the order of their code points.  A listing has each
name once, so the result is settled by which names are in it, and neither the order of the
listing nor what lies beside the crates can show.  The report consists of the two
differences between these names and the registered ones.  Each difference keeps the order
of the list that it is taken from, and the names in both lists are counted once on either
side, which is the law of the lengths in `drift_outcome`.
-/
import Mathlib.Data.List.Basic
import Mathlib.Data.String.Basic
import ChangeImpact.Proofs.Drift.Coverage

namespace ChangeImpact

namespace Text

/-! ## The order of code points -/

def codePoints (s : String) : List Nat :=
  s.toList.map Char.toNat

/-- In strictly ascending order of their code points. -/
def Ascending (l : List String) : Prop :=
  l.Pairwise fun a b => codePoints a < codePoints b

instance (l : List String) : Decidable (Ascending l) :=
  inferInstanceAs (Decidable (l.Pairwise fun a b => codePoints a < codePoints b))

theorem map_toNat_lt_iff {s t : List Char} :
    s.map Char.toNat < t.map Char.toNat ↔ s < t := by
  induction s generalizing t with
  | nil =>
    cases t with
    | nil => simp
    | cons d t => simp
  | cons c s ih =>
    cases t with
    | nil => simp
    | cons d t =>
      rw [List.map_cons, List.map_cons, List.cons_lt_cons_iff, List.cons_lt_cons_iff, ih,
        Char.toNat_inj, Char.lt_def, UInt32.lt_iff_toNat_lt]
      rfl

theorem codePoints_lt_iff {a b : String} : codePoints a < codePoints b ↔ a < b :=
  map_toNat_lt_iff

theorem Ascending.nodup {l : List String} (h : Ascending l) : l.Nodup :=
  h.imp fun hlt => (codePoints_lt_iff.mp hlt).ne

/-- Which names are in it settles an ascending list. -/
theorem Ascending.eq_of_mem_iff {l l' : List String} (h : Ascending l) (h' : Ascending l')
    (hmem : ∀ n, n ∈ l ↔ n ∈ l') : l = l' :=
  List.Perm.eq_of_pairwise (fun _ _ _ _ hab hba => absurd hba (lt_asymm hab)) h h'
    ((List.perm_ext_iff_of_nodup h.nodup h'.nodup).mpr hmem)

theorem Ascending.filter {l : List String} (h : Ascending l) (p : String → Bool) :
    Ascending (l.filter p) :=
  h.sublist List.filter_sublist

end Text

theorem pairwise_le_ascending (l : List String) : (ascending l).Pairwise (· ≤ ·) := by
  refine (List.pairwise_mergeSort ?_ ?_ l).imp of_decide_eq_true
  · intro a b c hab hbc
    exact decide_eq_true ((of_decide_eq_true hab).trans (of_decide_eq_true hbc))
  · intro a b
    rw [Bool.or_eq_true, decide_eq_true_iff, decide_eq_true_iff]
    exact le_total a b

theorem perm_ascending (l : List String) : (ascending l).Perm l :=
  l.mergeSort_perm _

theorem ascending_eq_of_perm {l l' : List String} (h : l.Perm l') :
    ascending l = ascending l' :=
  List.Perm.eq_of_pairwise (fun _ _ _ _ => le_antisymm) (pairwise_le_ascending l)
    (pairwise_le_ascending l') (((perm_ascending l).trans h).trans (perm_ascending l').symm)

theorem ascending_of_nodup {l : List String} (h : l.Nodup) : Text.Ascending (ascending l) := by
  have hnodup : (ascending l).Nodup := (perm_ascending l).nodup_iff.mpr h
  refine ((pairwise_le_ascending l).and hnodup).imp fun hab => ?_
  exact Text.codePoints_lt_iff.mpr (lt_of_le_of_ne hab.1 hab.2)

/-! ## The short names of a listing -/

variable {start : String} {entries more listing : List Entry}

/-- Directories of different names have different short names. -/
theorem nodup_shortNames (h : (entries.map Entry.name).Nodup) :
    (entries.filterMap (Entry.shortName? start)).Nodup := by
  rw [List.Nodup, List.pairwise_map] at h
  rw [List.Nodup, List.pairwise_filterMap]
  refine h.imp fun hne n hn n' hn' heq => hne ?_
  rw [Entry.shortName?_eq_some_iff] at hn hn'
  rw [hn.2.2, hn'.2.2, heq]

theorem ascending_discover (h : (entries.map Entry.name).Nodup) :
    Text.Ascending (discover start entries) :=
  ascending_of_nodup (nodup_shortNames h)

theorem shortNames_eq_nil (h : ∀ e ∈ more, e.isDirectory = false ∨
    ∀ n, n ≠ "" → e.name ≠ start ++ n) : more.filterMap (Entry.shortName? start) = [] := by
  rw [List.filterMap_eq_nil_iff]
  intro e he
  rw [Option.eq_none_iff_forall_ne_some]
  intro n hn
  obtain ⟨hne, hdir, hname⟩ := Entry.shortName?_eq_some_iff.mp hn
  rcases h e he with hfile | hother
  · rw [hdir] at hfile
    cases hfile
  · exact hother n hne hname

/-- Neither the order of a listing matters nor the entries in it that are no crates. -/
theorem discover_eq_of_perm (hmore : ∀ e ∈ more, e.isDirectory = false ∨
    ∀ n, n ≠ "" → e.name ≠ start ++ n) (hperm : listing.Perm (entries ++ more)) :
    discover start listing = discover start entries := by
  refine ascending_eq_of_perm ?_
  have hnames := hperm.filterMap (Entry.shortName? start)
  rwa [List.filterMap_append, shortNames_eq_nil hmore, List.append_nil] at hnames

/-! ## The two differences -/

namespace Drift

variable {r : Registry} {found : List String}

theorem mem_missing_iff {n : String} :
    n ∈ (ofNames r found).missing ↔ n ∈ r.crates ∧ n ∉ found := by
  rw [ofNames, List.mem_filter, decide_eq_true_iff]

theorem isClean_ofNames_iff :
    (ofNames r found).isClean = true ↔ ∀ n, n ∈ found ↔ n ∈ r.crates := by
  rw [isClean, Bool.and_eq_true, List.isEmpty_iff, List.isEmpty_iff,
    List.eq_nil_iff_forall_not_mem, List.eq_nil_iff_forall_not_mem]
  simp only [mem_missing_iff, mem_unregistered_iff, not_and, not_not]
  constructor
  · intro h n
    exact ⟨h.2 n, h.1 n⟩
  · intro h
    exact ⟨fun n => (h n).mpr, fun n => (h n).mp⟩

/-- The names on both sides are as many seen from one as from the other. -/
theorem length_filter_mem_comm (hfound : found.Nodup) :
    (found.filter (· ∈ r.crates)).length = (r.crates.filter (· ∈ found)).length := by
  refine List.Perm.length_eq ?_
  rw [List.perm_ext_iff_of_nodup (hfound.filter _) (r.nodup.filter _)]
  intro n
  rw [List.mem_filter, List.mem_filter, decide_eq_true_iff, decide_eq_true_iff]
  exact and_comm

theorem length_add_length_missing (hfound : found.Nodup) :
    found.length + (ofNames r found).missing.length =
      r.crates.length + (ofNames r found).unregistered.length := by
  have hshared := length_filter_mem_comm (r := r) hfound
  have hcrates := r.crates.length_eq_length_filter_add (· ∈ found)
  have hnames := found.length_eq_length_filter_add (· ∈ r.crates)
  simp only [← decide_not] at hcrates hnames
  show _ + (r.crates.filter (· ∉ found)).length = _ + (found.filter (· ∉ r.crates)).length
  omega

end Drift

/-- The check finds the names of the crate directories in ascending order of their code
points.  It reports the registered names that are not among them in the order of the
registry, and those of them that are not registered in ascending order.  The drift is clean
exactly if both sides have the same names, whatever overlaps.  The order of the listing does not
matter, and neither do files, links and directories that are named otherwise. -/
theorem drift_outcome (r : Registry) (below : String) (entries : List Entry)
    (hnames : (entries.map Entry.name).Nodup) :
    ∃ place start, (∀ place' start', Registry.RootCut r.root place' start' ↔
        place' = place ∧ start' = start) ∧
      ∃ found d, (Registry.shelf below r.root).crates (some entries) = .ok found ∧
        r.drift (Registry.shelf below r.root) (some entries) = .ok d ∧
        Text.Ascending found ∧
        (∀ n, n ∈ found ↔
          n ≠ "" ∧ ∃ e ∈ entries, e.isDirectory = true ∧ e.name = start ++ n) ∧
        d.missing.Sublist r.crates ∧
        (∀ n, n ∈ d.missing ↔ n ∈ r.crates ∧ n ∉ found) ∧
        Text.Ascending d.unregistered ∧
        (∀ n, n ∈ d.unregistered ↔ n ∈ found ∧ n ∉ r.crates) ∧
        (∀ overlaps, ({ d with overlaps } : Drift).isClean = true ↔
          ∀ n, n ∈ found ↔ n ∈ r.crates) ∧
        found.length + d.missing.length = r.crates.length + d.unregistered.length ∧
        ∀ more listing : List Entry,
          (∀ e ∈ more, e.isDirectory = false ∨ ∀ n, n ≠ "" → e.name ≠ start ++ n) →
          listing.Perm (entries ++ more) →
            (Registry.shelf below r.root).crates (some listing) = .ok found ∧
              r.drift (Registry.shelf below r.root) (some listing) = .ok d := by
  obtain ⟨place, start, hcut⟩ := Registry.exists_rootCut r.root
  have hcrates : ∀ es, (Registry.shelf below r.root).crates (some es) =
      .ok (discover start es) := by
    intro es
    rw [Registry.Shelf.crates, Registry.start_shelf hcut]
  have hdrift : ∀ es, r.drift (Registry.shelf below r.root) (some es) =
      .ok (.ofNames r (discover start es)) := by
    intro es
    rw [Registry.drift, hcrates]
    rfl
  have hfound : Text.Ascending (discover start entries) := ascending_discover hnames
  refine ⟨place, start, fun place' start' => ?_, discover start entries,
    .ofNames r (discover start entries), hcrates entries, hdrift entries, hfound,
    fun n => mem_discover_iff, List.filter_sublist, fun n => Drift.mem_missing_iff,
    hfound.filter _, fun n => Drift.mem_unregistered_iff,
    fun overlaps => Drift.isClean_ofNames_iff, Drift.length_add_length_missing hfound.nodup,
    fun more listing hmore hperm => ?_⟩
  · rw [Registry.rootCut_iff, hcut.splitRoot_eq]
  · rw [hcrates, hdrift, discover_eq_of_perm hmore hperm]
    exact ⟨rfl, rfl⟩

/-- A listing out of order with a name beyond the letters, two names that are not registered, a
file, and a directory with the common part alone for a name; then the same listing the other way
round with a link beside it. -/
theorem drift_outcome_reordered :
    let r : Registry := ⟨"a/x-", ["stop", "run"], by decide, by decide⟩
    let entries : List Entry :=
      [⟨"x-é", true⟩, ⟨"x-walk", true⟩, ⟨"x-run", true⟩, ⟨"x-notes", false⟩, ⟨"x-", true⟩]
    let listing : List Entry := entries.reverse ++ [⟨"x-link", false⟩]
    (entries.map Entry.name).Nodup ∧ ∃ d,
      r.drift (Registry.shelf "." r.root) (some entries) = .ok d ∧
      r.drift (Registry.shelf "." r.root) (some listing) = .ok d ∧
      "stop" ∈ d.missing ∧ "run" ∉ d.missing ∧ d.unregistered = ["walk", "é"] ∧
      d.isClean = false := by
  intro r entries listing
  have hnames : (entries.map Entry.name).Nodup := by decide
  obtain ⟨place, start, hcut, found, d, -, hd, -, hfound, -, hmissing, hascending,
    hunregistered, hclean, -, hsame⟩ := drift_outcome r "." entries hnames
  have hroot : Registry.RootCut r.root (some "a") "x-" := by
    show Registry.RootCut ("a" ++ "/" ++ "x-") _ _
    exact .slash (by decide)
  obtain ⟨rfl, rfl⟩ := (hcut _ _).mp hroot
  have hshort : entries.filterMap (Entry.shortName? "x-") = ["é", "walk", "run"] := by decide
  have hnamed : ∀ n, n ∈ found ↔ n ∈ ["é", "walk", "run"] := by
    intro n
    rw [hfound, ← mem_discover_iff, discover, (perm_ascending _).mem_iff, hshort]
  have hlink : ∀ e ∈ ([⟨"x-link", false⟩] : List Entry), e.isDirectory = false ∨
      ∀ n, n ≠ "" → e.name ≠ "x-" ++ n :=
    fun e he => .inl (by rw [List.mem_singleton.mp he])
  have hlisting := (hsame _ listing hlink (entries.reverse_perm.append_right _)).2
  have hnew : d.unregistered = ["walk", "é"] := by
    refine hascending.eq_of_mem_iff (by decide) fun n => ?_
    have hperm : ["walk", "é"].Perm (["é", "walk", "run"].filter (· ∉ r.crates)) := by decide
    rw [hunregistered, hnamed, hperm.mem_iff, List.mem_filter, decide_eq_true_iff]
  refine ⟨hnames, d, hd, hlisting, (hmissing _).mpr ⟨by decide, ?_⟩, ?_, hnew, ?_⟩
  · rw [hnamed]
    decide
  · rw [hmissing, hnamed]
    decide
  · rw [Drift.isClean, hnew]
    exact Bool.and_false _

/-! ## The crates in a tree of files -/

namespace Tree

variable {t : Tree} {directory : Location} {path below root : String} {found : List String}

theorem entryIn?_eq_some_iff {n : Location × Node} {e : Entry} :
    entryIn? directory n = some e ↔
      n.1 = directory ++ [e.name] ∧ e.isDirectory = n.2.isDirectory := by
  obtain ⟨location, node⟩ := n
  obtain ⟨name, isDirectory⟩ := e
  unfold entryIn?
  rcases List.eq_nil_or_concat location with hl | ⟨front, last, hl⟩
  · subst hl
    simp
  · rw [List.concat_eq_append] at hl
    subst hl
    simp only [List.getLast?_concat, List.dropLast_concat]
    constructor
    · intro h
      split at h
      · next hfront =>
        obtain ⟨rfl, rfl⟩ := Entry.mk.inj (Option.some.inj h)
        exact ⟨by rw [hfront], rfl⟩
      · cases h
    · intro h
      obtain ⟨hfront, hlast⟩ := List.append_inj' h.1 rfl
      obtain rfl := List.singleton_inj.mp hlast
      rw [if_pos hfront, h.2]

/-- A directory is listed by the names of its nodes, each of them once. -/
theorem exists_location_of_list? {entries : List Entry} (h : t.list? path = some entries) :
    ∃ location, t.place? true path = some (.present location) ∧
      (entries.map Entry.name).Nodup ∧
      ∀ e, e ∈ entries ↔ ∃ node, t.node? (location ++ [e.name]) = some node ∧
        e.isDirectory = node.isDirectory := by
  unfold list? at h
  split at h
  · next location hplace =>
    split at h
    · obtain rfl := Option.some.inj h
      refine ⟨location, hplace, ?_, fun e => ?_⟩
      · rw [List.Nodup, List.pairwise_map, List.pairwise_filterMap]
        refine Std.HashMap.distinct_keys_toList.imp fun hne e he e' he' heq => ?_
        rw [entryIn?_eq_some_iff] at he he'
        rw [beq_eq_false_iff_ne, he.1, he'.1, heq] at hne
        exact hne rfl
      · have hnode : t.node? (location ++ [e.name]) = t.nodes[location ++ [e.name]]? :=
          if_neg (List.append_ne_nil_of_right_ne_nil _ (List.cons_ne_nil _ _))
        simp only [List.mem_filterMap, entryIn?_eq_some_iff, Prod.exists, hnode,
          Std.HashMap.mem_toList_iff_getElem?_eq_some]
        constructor
        · intro he
          obtain ⟨_, node, hget, rfl, hdir⟩ := he
          exact ⟨node, hget, hdir⟩
        · intro he
          obtain ⟨node, hget, hdir⟩ := he
          exact ⟨_, node, hget, rfl, hdir⟩
    · cases h
  · cases h

/-- In a tree the crates are the directories that have a node of their own; a link to one
is none. -/
theorem exists_location_of_crates (h : t.crates below root = .ok found) :
    Text.Ascending found ∧ ∃ location,
      t.place? true (Registry.shelf below root).directory = some (.present location) ∧
      ∀ n, n ∈ found ↔ n ≠ "" ∧
        t.node? (location ++ [(Registry.shelf below root).start ++ n]) = some .directory := by
  have hcrates : t.crates below root = (Registry.shelf below root).crates
    (t.list? (Registry.shelf below root).directory) := rfl
  rw [hcrates] at h
  cases hlist : t.list? (Registry.shelf below root).directory with
  | none =>
    rw [hlist] at h
    cases h
  | some entries =>
    rw [hlist] at h
    obtain rfl := Except.ok.inj h
    obtain ⟨location, hplace, hnames, hentries⟩ := exists_location_of_list? hlist
    refine ⟨ascending_discover hnames, location, hplace, fun n => ?_⟩
    rw [mem_discover_iff]
    refine and_congr_right fun _ => ?_
    constructor
    · intro he
      obtain ⟨e, he, hdir, hname⟩ := he
      obtain ⟨node, hnode, hkind⟩ := (hentries e).mp he
      rw [hname] at hnode
      cases node with
      | directory => exact hnode
      | file content =>
        rw [hdir] at hkind
        cases hkind
      | link target =>
        rw [hdir] at hkind
        cases hkind
    · intro hnode
      exact ⟨⟨_, true⟩, (hentries _).mpr ⟨.directory, hnode, rfl⟩, rfl, rfl⟩

section Check

variable {r : Registry} {d : Drift}

theorem exists_drift_of_place?
    (hplace : t.place? true (Registry.shelf below r.root).directory = some (.present directory))
    (hdirectory : t.hasDirectory directory = true) : ∃ d, t.drift below r = .ok d := by
  unfold drift
  dsimp only
  rw [list?, hplace]
  dsimp only
  rw [if_pos hdirectory]
  exact ⟨_, rfl⟩

/-- A check is clean if the directory of the crates has a directory for each registered name
and for no other short name. -/
theorem isClean_drift_iff
    (hplace : t.place? true (Registry.shelf below r.root).directory = some (.present directory))
    (hd : t.drift below r = .ok d) :
    d.isClean = true ↔ ∀ n, (n ≠ "" ∧
      t.node? (directory ++ [(Registry.shelf below r.root).start ++ n]) = some .directory) ↔
        n ∈ r.crates := by
  have hmap : t.drift below r = (t.crates below r.root).map (Drift.ofNames r) := rfl
  rw [hmap] at hd
  cases hfound : t.crates below r.root with
  | error u =>
    rw [hfound] at hd
    cases hd
  | ok found =>
    rw [hfound] at hd
    obtain rfl := Except.ok.inj hd
    obtain ⟨-, location, hlocation, hmem⟩ := exists_location_of_crates hfound
    obtain rfl := Place.present.inj (Option.some.inj (hplace.symm.trans hlocation))
    rw [Drift.isClean_ofNames_iff]
    exact forall_congr' fun n => by rw [hmem]

/-- A tree with some more directories in one place. -/
def withDirectories (t : Tree) (place : Location) (names : List String) : Tree :=
  names.foldr (fun n t => t.put (place ++ [n]) .directory) t

theorem base_withDirectories (t : Tree) (place : Location) (names : List String) :
    (t.withDirectories place names).base = t.base := by
  induction names with
  | nil => rfl
  | cons n ns ih => exact ih

theorem node?_withDirectories (t : Tree) (place : Location) (names : List String)
    (l : Location) : (t.withDirectories place names).node? l =
      if ∃ n ∈ names, l = place ++ [n] then some .directory else t.node? l := by
  induction names with
  | nil => rw [if_neg (by simp), withDirectories, List.foldr_nil]
  | cons n ns ih =>
    have hcons : t.withDirectories place (n :: ns) =
        (t.withDirectories place ns).put (place ++ [n]) .directory := rfl
    rw [hcons]
    by_cases hl : l = place ++ [n]
    · rw [hl, node?_put_self (List.append_ne_nil_of_right_ne_nil _ (List.cons_ne_nil _ _)),
        if_pos ⟨n, List.mem_cons_self, rfl⟩]
    · rw [node?_put_of_ne hl, ih]
      exact if_congr (by simp [hl]) rfl rfl

/-- A place that was empty and has a directory for each registered name checks clean. -/
theorem isClean_drift_withDirectories {names : List String}
    (hempty : ∀ n, t.node? (directory ++ [n]) = none)
    (hnames : names = r.crates.map ((Registry.shelf below r.root).start ++ ·))
    (hplace : (t.withDirectories directory names).place? true
      (Registry.shelf below r.root).directory = some (.present directory))
    (hd : (t.withDirectories directory names).drift below r = .ok d) : d.isClean = true := by
  rw [isClean_drift_iff hplace hd]
  intro n
  rw [node?_withDirectories, hempty, hnames]
  constructor
  · intro hn
    obtain ⟨-, hnode⟩ := hn
    split at hnode
    · next hname =>
      obtain ⟨_, hm, heq⟩ := hname
      obtain ⟨m, hcrate, rfl⟩ := List.mem_map.mp hm
      have hsame := List.singleton_inj.mp (List.append_cancel_left heq)
      rw [String.append_right_inj] at hsame
      rwa [hsame]
    · cases hnode
  · intro hn
    rw [if_pos ⟨_, List.mem_map_of_mem hn, rfl⟩]
    exact ⟨r.ne_empty n hn, rfl⟩

end Check

end Tree

end ChangeImpact
