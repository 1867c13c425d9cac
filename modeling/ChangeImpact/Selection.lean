/-
Selecting the jobs for a list of changed paths.

A crate gets its full job from the first path it owns that does not mention
tests.  If every path it owns does, it gets the test-only job from the first of
them.  The triggers follow the crates.  Each job is reported together with the
path that caused it, and the job list of a selection is read off these matches.
-/
import ChangeImpact.Registry

namespace ChangeImpact

/-- A selected job and the changed path that caused it. -/
structure Match where
  job : Token
  kind : Kind
  /-- The crate, for a job of a crate. -/
  crateName : Option String
  path : String
deriving DecidableEq, Repr

/-- The word that marks a path as a test. -/
def testMarker : String := "test"

/-- Whether the test marker occurs anywhere in a path, in lower case as it is. -/
def mentionsTest (path : String) : Bool :=
  Text.occursIn testMarker.toList path.toList

theorem mentionsTest_iff {path : String} :
    mentionsTest path = true ↔ testMarker.toList <:+: path.toList :=
  Text.occursIn_iff

/-- Whether a path begins with the given text. -/
def isBelow (start path : String) : Bool :=
  start.toList.isPrefixOf path.toList

theorem isBelow_iff {start path : String} :
    isBelow start path = true ↔ start.toList <+: path.toList :=
  List.isPrefixOf_iff_prefix

/-- The match of the crate `name` below `root`, if a path calls for one. -/
def crateMatch? (paths : List String) (root name : String) : Option Match :=
  match paths.find? fun p => isBelow (root ++ name) p && !mentionsTest p with
  | some p => some ⟨.full name, .crate, some name, p⟩
  | none =>
    (paths.find? fun p => isBelow (root ++ name) p).map fun p =>
      ⟨.testOnly name, .testOnly, some name, p⟩

def triggerMatch? (paths : List String) (t : Trigger) : Option Match :=
  (paths.find? fun p => t.fires p).map fun p => ⟨t.job, .trigger, none, p⟩

def crateJob? (paths : List String) (root name : String) : Option Token :=
  (crateMatch? paths root name).map Match.job

def triggerJob? (paths : List String) (t : Trigger) : Option Token :=
  (triggerMatch? paths t).map Match.job

namespace Config

/-- The selection for a list of changed paths: crates in registry order, then the
triggers. -/
def select (c : Config) (paths : List String) : List Match :=
  c.registry.crates.filterMap (crateMatch? paths c.registry.root) ++
    c.triggers.filterMap (triggerMatch? paths)

def jobs (c : Config) (paths : List String) : JobList :=
  (c.select paths).map Match.job

end Config

structure Selector where
  config : Config
deriving DecidableEq

namespace Selector

def explain (s : Selector) (paths : List String) : List Match :=
  s.config.select paths

def select (s : Selector) (paths : List String) : JobList :=
  s.config.jobs paths

end Selector

end ChangeImpact
