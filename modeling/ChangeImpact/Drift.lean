/-
Drift between the registry and the crates on disk.

The crates on disk are the directories in one place whose names begin with a
common part; what follows it is the short name.  The root of a registry gives
both: it is cut at its last slash into the place and the common part.  Links do
not count as directories.  Drift consists of the registered names without a
directory and of the short names without registration; overlaps are listed as a
warning and are no drift.
-/
import ChangeImpact.Registry
import ChangeImpact.Text.Affix

namespace ChangeImpact

structure Entry where
  name : String
  isDirectory : Bool
deriving DecidableEq, Repr

namespace Registry

/-- The part of a root up to its last slash, if it has one, and the part after it. -/
def splitRoot (root : String) : Option String × String :=
  let tail := (root.toList.reverse.takeWhile (· ≠ '/')).reverse
  match root.toList.reverse.dropWhile (· ≠ '/') with
  | [] => (none, String.ofList tail)
  | _ :: front => (some (String.ofList front.reverse), String.ofList tail)

end Registry

def ascending (l : List String) : List String :=
  l.mergeSort fun a b => decide (a ≤ b)

/-- The short name of a directory whose name begins with `start`. -/
def Entry.shortName? (start : String) (e : Entry) : Option String :=
  if e.isDirectory then
    match Text.dropWord? start.toList e.name.toList with
    | some (c :: r) => some (String.ofList (c :: r))
    | _ => none
  else none

/-- The short names of the crates among the entries of a directory. -/
def discover (start : String) (entries : List Entry) : List String :=
  ascending (entries.filterMap (Entry.shortName? start))

/-- How a registry and the crates on disk differ. -/
structure Drift where
  /-- Registered names that have no directory. -/
  missing : List String
  /-- Short names on disk that are not registered. -/
  unregistered : List String
  overlaps : List Registry.Overlap
deriving DecidableEq, Repr

namespace Drift

/-- The drift of a registry against the short names on disk. -/
def ofNames (r : Registry) (found : List String) : Drift where
  missing := r.crates.filter (· ∉ found)
  unregistered := found.filter (· ∉ r.crates)
  overlaps := r.overlaps

def isClean (d : Drift) : Bool :=
  d.missing.isEmpty && d.unregistered.isEmpty

/-- A paragraph of the text, left out when it has no lines. -/
def paragraph (title : String) (lines : List String) : String :=
  if lines.isEmpty then ""
  else title ++ "\n" ++ String.join (lines.map fun l => "  - " ++ l ++ "\n")

def text (d : Drift) : String :=
  (if d.isClean then "Registry matches the crates on disk.\n" else "") ++
    paragraph "Registered but not found on disk:" d.missing ++
    paragraph "Found on disk but not registered:" d.unregistered ++
    paragraph "Prefix overlaps (warning):"
      (d.overlaps.map fun o => o.shorter ++ " also matches " ++ o.longer)

end Drift
end ChangeImpact
