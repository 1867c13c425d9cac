/-
What is looked up in a tree: the settings file below a root and the crates below
another.
-/
import ChangeImpact.Files.Tree
import ChangeImpact.Settings.Source

namespace ChangeImpact

namespace Registry

/-- Where crates are listed, and how the names of their directories begin. -/
structure Shelf where
  directory : String
  start : String
deriving DecidableEq, Repr

/-- The crates of a registry's root, below the root of a repository. -/
def shelf (below root : String) : Shelf :=
  match splitRoot root with
  | (some directory, start) => ⟨Path.join below directory, start⟩
  | (none, start) => ⟨below, start⟩

/-- The directory of the crates cannot be listed. -/
structure Unlisted where
  directory : String
deriving DecidableEq, Repr

def Unlisted.message (u : Unlisted) : String :=
  "list " ++ u.directory

/-- The short names of the crates in the listing of their directory. -/
def Shelf.crates (s : Shelf) : Option (List Entry) → Except Unlisted (List String)
  | none => .error ⟨s.directory⟩
  | some entries => .ok (discover s.start entries)

/-- The drift against the listing of the directory of the crates. -/
def drift (r : Registry) (s : Shelf) (listing : Option (List Entry)) : Except Unlisted Drift :=
  (s.crates listing).map (Drift.ofNames r)

end Registry

namespace Tree

/-- What is found where a settings file is looked for. -/
def settingsSource (t : Tree) (path : String) : Settings.Source :=
  if t.isPresent path then
    match t.read? path with
    | some bytes => .content bytes
    | none => .unreadable
  else .missing

def settingsPath? (t : Tree) (root : String) : Option String :=
  if t.isPresent (Settings.pathBelow root) then some (Settings.pathBelow root) else none

def loadSettings (t : Tree) (path : String) : Except Settings.LoadFault Settings :=
  Settings.load path (t.settingsSource path)

def settings (t : Tree) (root : String) : Except Settings.LoadFault Settings :=
  let path := Settings.pathBelow root
  Settings.loadOrDefault path (t.settingsSource path)

/-- The short names of the crates of a registry's root, below the root of a repository. -/
def crates (t : Tree) (below root : String) : Except Registry.Unlisted (List String) :=
  let shelf := Registry.shelf below root
  shelf.crates (t.list? shelf.directory)

def drift (t : Tree) (below : String) (r : Registry) : Except Registry.Unlisted Drift :=
  let shelf := Registry.shelf below r.root
  r.drift shelf (t.list? shelf.directory)

end Tree
end ChangeImpact
