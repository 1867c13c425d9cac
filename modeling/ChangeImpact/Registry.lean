/-
The registry of crates and the rules that turn changed paths into jobs.

A registry is an ordered list of crate names below one root.  Names are non-empty
and pairwise different, which `Registry.ofNames` checks name by name, so the
first fault from the left is the one reported.  A crate owns every path that
begins with the root followed by its name.  That is a plain comparison of
beginnings, so a crate whose name begins another name owns the paths of both;
`Registry.overlaps` lists these pairs.
-/
import ChangeImpact.Text.Affix
import ChangeImpact.Job

namespace ChangeImpact

/-- Crate names in the order of their jobs, below a common root. -/
structure Registry where
  root : String
  crates : List String
  ne_empty : ∀ n ∈ crates, n ≠ ""
  nodup : crates.Nodup
deriving DecidableEq

namespace Registry

inductive Fault where
  | emptyName (index : Nat)
  | duplicate (name : String)
deriving DecidableEq, Repr

def Fault.message : Fault → String
  | .emptyName i => s!"crate name at index {i} is empty"
  | .duplicate n => s!"crate '{n}' is registered more than once"

/-- The first fault of a list of names that follows the names in `seen`. -/
def firstFault (seen : List String) : List String → Option Fault
  | [] => none
  | n :: rest =>
    if n = "" then some (.emptyName seen.length)
    else if n ∈ seen then some (.duplicate n)
    else firstFault (n :: seen) rest

theorem firstFault_eq_none_iff {seen l : List String} :
    firstFault seen l = none ↔ (∀ n ∈ l, n ≠ "" ∧ n ∉ seen) ∧ l.Nodup := by
  induction l generalizing seen with
  | nil => simp [firstFault]
  | cons n l ih =>
    rw [firstFault]
    split
    · next h => simp [h]
    · next h =>
      split
      · next hs => simp [hs]
      · next hs =>
        rw [ih, List.nodup_cons]
        simp only [List.mem_cons, not_or, forall_eq_or_imp]
        constructor
        · rintro ⟨hl, hn⟩
          exact ⟨⟨⟨h, hs⟩, fun m hm => ⟨(hl m hm).1, (hl m hm).2.2⟩⟩,
            fun hm => (hl n hm).2.1 rfl, hn⟩
        · rintro ⟨⟨_, hl⟩, hm, hn⟩
          exact ⟨fun m hm' => ⟨(hl m hm').1, fun e => hm (e ▸ hm'), (hl m hm').2⟩, hn⟩

def ofNames (root : String) (names : List String) : Except Fault Registry :=
  match h : firstFault [] names with
  | some f => .error f
  | none =>
    .ok {
      root
      crates := names
      ne_empty := fun n hn => ((firstFault_eq_none_iff.1 h).1 n hn).1
      nodup := (firstFault_eq_none_iff.1 h).2 }

/-- Every registry is the one that is made of its names. -/
theorem ofNames_root_crates (r : Registry) : ofNames r.root r.crates = .ok r := by
  have h : firstFault [] r.crates = none :=
    firstFault_eq_none_iff.2 ⟨fun n hn => ⟨r.ne_empty n hn, by simp⟩, r.nodup⟩
  unfold ofNames
  split
  · next f hf => rw [h] at hf; cases hf
  · rfl

/-- How the paths of a crate begin. -/
def start (r : Registry) (name : String) : String :=
  r.root ++ name

/-- Two crates of which the first also owns the paths of the second. -/
structure Overlap where
  shorter : String
  longer : String
deriving DecidableEq, Repr

/-- The overlaps, in the order of the shorter names and then of the longer ones. -/
def overlaps (r : Registry) : List Overlap :=
  r.crates.flatMap fun a =>
    (r.crates.filter fun b => a != b && a.toList.isPrefixOf b.toList).map (⟨a, ·⟩)

theorem mem_overlaps_iff {r : Registry} {a b : String} :
    ⟨a, b⟩ ∈ r.overlaps ↔ a ∈ r.crates ∧ b ∈ r.crates ∧ a ≠ b ∧ a.toList <+: b.toList := by
  simp only [overlaps, List.mem_flatMap, List.mem_map, List.mem_filter, Overlap.mk.injEq,
    Bool.and_eq_true, bne_iff_ne, List.isPrefixOf_iff_prefix]
  constructor
  · rintro ⟨c, hc, d, ⟨hd, hne, hp⟩, rfl, rfl⟩
    exact ⟨hc, hd, hne, hp⟩
  · rintro ⟨ha, hb, hne, hp⟩
    exact ⟨a, ha, b, ⟨hb, hne, hp⟩, rfl, rfl⟩

end Registry

/-- A job that runs as soon as one changed path has a given ending. -/
structure Trigger where
  suffix : String
  job : Token
deriving DecidableEq, Repr

/-- Whether a path has the ending that a trigger waits for. -/
def Trigger.fires (t : Trigger) (path : String) : Bool :=
  t.suffix.toList.isSuffixOf path.toList

theorem Trigger.fires_iff {t : Trigger} {path : String} :
    t.fires path = true ↔ t.suffix.toList <:+ path.toList :=
  List.isSuffixOf_iff_suffix

/-- What a selection needs besides the changed paths. -/
structure Config where
  registry : Registry
  /-- The trigger for files of the implementation language. -/
  native : Trigger
  /-- The trigger for files of the language that is implemented. -/
  dsl : Trigger
deriving DecidableEq

namespace Config

def triggers (c : Config) : List Trigger :=
  [c.native, c.dsl]

/-- No selection has more jobs than this. -/
def maxJobs (c : Config) : Nat :=
  c.registry.crates.length + 2

end Config

end ChangeImpact
