/-
A tree of files, directories and links.

A tree maps locations to nodes; a location is the list of names that lead to a
node from the top.  A path is walked step by step.  Links are spliced into the
steps that remain, a limited number of times; whether a link in the last place is
followed is up to the operation.  A walk ends at a node or at a free place in a
directory, which is what an operation needs to read, to create or to refuse.

Writing a file and making a link change one node or none.  A file is opened first,
which makes it if it is missing, and then filled; its medium may refuse to open it or
to take more than a beginning of the text.  Making a directory with those on the way
to it and removing one with all that it holds go node by node, and what was done
before they fail stays done.
-/
import Std.Data.HashMap
import ChangeImpact.Drift
import ChangeImpact.Files.Path

namespace ChangeImpact

/-- The names that lead from the top to a node. -/
abbrev Location := List String

/-- What is found at a location. -/
inductive Node where
  | file (content : ByteArray)
  | link (target : String)
  | directory

/-- Whether a node is a directory itself; a link to one is not. -/
def Node.isDirectory : Node → Bool
  | .directory => true
  | .file _ | .link _ => false

/-- What can be written, as far as it is not for the nodes to say. -/
structure Medium where
  /-- Whether the file at a location can be opened for writing, or made there. -/
  opens : Location → Bool
  /-- How many bytes of a text can be written behind what the file at a location holds. -/
  takes : Location → ByteArray → ByteArray → Nat

/-- The medium that takes everything. -/
def Medium.ample : Medium where
  opens _ := true
  takes _ _ bytes := bytes.size

/-- A tree of nodes, in which the paths that are not absolute begin at one directory. -/
structure Tree where
  nodes : Std.HashMap Location Node
  base : Location
  medium : Medium

/-- Where a path leads. -/
inductive Place where
  | present (location : Location)
  /-- A name that is free in an existing directory. -/
  | free (location : Location)
deriving DecidableEq, Repr

namespace Tree

/-- The tree in which `base` is the only directory below the top. -/
def blank (base : String) (medium : Medium := .ample) : Tree where
  nodes := (∅ : Std.HashMap Location Node).insert [base] .directory
  base := [base]
  medium := medium

/-- The node at a location.  At the top there is always a directory. -/
def node? (t : Tree) (location : Location) : Option Node :=
  if location = [] then some .directory else t.nodes[location]?

/-- The tree with another node at a location. -/
def put (t : Tree) (location : Location) (node : Node) : Tree :=
  { t with nodes := t.nodes.insert location node }

/-- The tree without the nodes below a location. -/
def clear (t : Tree) (location : Location) : Tree :=
  { t with nodes := t.nodes.filter fun l _ => l = location || !location.isPrefixOf l }

def erase (t : Tree) (location : Location) : Tree :=
  { t with nodes := t.nodes.erase location }

def hasDirectory (t : Tree) (location : Location) : Bool :=
  (t.node? location).any Node.isDirectory

theorem node?_put_self {t : Tree} {location : Location} (h : location ≠ []) (node : Node) :
    (t.put location node).node? location = some node := by
  simp [node?, put, h]

theorem node?_put_of_ne {t : Tree} {location other : Location} (h : other ≠ location)
    (node : Node) : (t.put location node).node? other = t.node? other := by
  simp [node?, put, Std.HashMap.getElem?_insert, Ne.symm h]

/-! ## Walking a path -/

/-- Walks from a directory along steps.  A file may only be the last step, and a link
there is followed only if `follow` says so.  The place comes with the number of links
that may still be followed. -/
def walk (t : Tree) (follow : Bool) (links : Nat) (here : Location) :
    List String → Option (Place × Nat)
  | [] => some (.present here, links)
  | step :: rest =>
    if Path.staysPut step then t.walk follow links here rest
    else if step = ".." then t.walk follow links here.dropLast rest
    else if Path.maxNameBytes < step.utf8ByteSize then none
    else
      let there := here ++ [step]
      match t.node? there with
      | none => if rest = [] then some (.free there, links) else none
      | some (.file _) => if rest = [] then some (.present there, links) else none
      | some .directory => t.walk follow links there rest
      | some (.link target) =>
        if rest = [] ∧ follow = false then some (.present there, links)
        else
          match links with
          | 0 => none
          | n + 1 =>
            t.walk follow n (if Path.isAbsolute target then [] else here)
              (Path.steps target ++ rest)
termination_by steps => (links, steps.length)

/-- The greatest number of links on the way. -/
def maxLinks : Nat := 40

/-- Where the steps of a path begin. -/
def start (t : Tree) (path : String) : Location :=
  if Path.isAbsolute path then [] else t.base

/-- Where a path leads. -/
def place? (t : Tree) (follow : Bool) (path : String) : Option Place :=
  if Path.isUsable path then
    (t.walk follow maxLinks (t.start path) (Path.steps path)).map (·.1)
  else none

/-- The node to which a path leads when links are followed. -/
def find? (t : Tree) (path : String) : Option Node :=
  match t.place? true path with
  | some (.present location) => t.node? location
  | _ => none

/-! ## Reading -/

/-- Whether there is anything at a path; a link counts as what it leads to. -/
def isPresent (t : Tree) (path : String) : Bool :=
  (t.find? path).isSome

def read? (t : Tree) (path : String) : Option ByteArray :=
  match t.find? path with
  | some (.file content) => some content
  | _ => none

/-- The entry that a node makes in the listing of a directory. -/
def entryIn? (directory : Location) (n : Location × Node) : Option Entry :=
  match n.1.getLast? with
  | some name =>
    if n.1.dropLast = directory then some ⟨name, n.2.isDirectory⟩ else none
  | none => none

/-- The entries of the directory at a path, in no particular order. -/
def list? (t : Tree) (path : String) : Option (List Entry) :=
  match t.place? true path with
  | some (.present location) =>
    if t.hasDirectory location then some (t.nodes.toList.filterMap (entryIn? location))
    else none
  | _ => none

/-! ## Changing one node -/

/-- A text for a file, behind what the file holds or in place of it. -/
structure Draft where
  keeps : Bool
  bytes : ByteArray

/-- What is left of the content of a file that is opened for the text. -/
def Draft.kept (d : Draft) (content : ByteArray) : ByteArray :=
  if d.keeps then content else .empty

/-- What has become of a writing. -/
inductive Written where
  /-- The file was not opened, and nothing has changed. -/
  | unopened
  /-- The file holds no more than a beginning of the text. -/
  | cut (after : Tree)
  | whole (after : Tree)

/-- The location of the file at a path, and its content.  A missing file counts as empty. -/
def file? (t : Tree) (path : String) : Option (Location × ByteArray) :=
  match t.place? true path with
  | some (.present location) =>
    match t.node? location with
    | some (.file content) => some (location, content)
    | _ => none
  | some (.free location) => some (location, .empty)
  | none => none

/-- Writes a text to the file at a path.  A missing file is made. -/
def write (t : Tree) (path : String) (d : Draft) : Written :=
  match t.file? path with
  | none => .unopened
  | some (location, content) =>
    if t.medium.opens location then
      let kept := d.kept content
      let taken := t.medium.takes location kept d.bytes
      if d.bytes.size ≤ taken then .whole (t.put location (.file (kept ++ d.bytes)))
      else .cut (t.put location (.file (kept ++ d.bytes.extract 0 taken)))
    else .unopened

/-- Gives the file at a path another content, if all of it can be written. -/
def replace? (t : Tree) (path : String) (content : ByteArray) : Option Tree :=
  match t.write path ⟨false, content⟩ with
  | .whole after => some after
  | .cut _ | .unopened => none

/-- Makes a link.  Its target need not be there, but must be usable as a path. -/
def makeLink? (t : Tree) (path target : String) : Option Tree :=
  if Path.isUsable target then
    match t.place? false path with
    | some (.free location) => some (t.put location (.link target))
    | _ => none
  else none

/-! ## Changing several nodes -/

/-- What has become of a change of several nodes. -/
structure Attempt where
  tree : Tree
  complete : Bool

/-- Makes the directories that are missing along steps.  A link must lead to a directory
that is there.  A name before nothing but dots is not made, because a dot is looked for
in its directory. -/
def makeAlong (t : Tree) (links : Nat) (here : Location) : List String → Attempt
  | [] => ⟨t, true⟩
  | step :: rest =>
    match t.walk true links here [step] with
    | some (.present location, links) =>
      if t.hasDirectory location then t.makeAlong links location rest else ⟨t, false⟩
    | some (.free location, links) =>
      if location = here ++ [step] ∧ ¬ (rest.contains "." ∧ rest.all Path.staysPut) then
        (t.put location .directory).makeAlong links location rest
      else ⟨t, false⟩
    | none => ⟨t, false⟩

/-- Makes the directory at a path and those on the way to it.  For the empty path there
is nothing to make. -/
def makeDirectories (t : Tree) (path : String) : Attempt :=
  if path = "" then ⟨t, true⟩
  else if Path.isUsable path then t.makeAlong maxLinks (t.start path) (Path.steps path)
  else ⟨t, false⟩

/-- Removes the directory at a path, which holds nothing any more.  It must be named by
the last step itself, not by dots or a link.  A path that leads nowhere since the
directory was cleared has nothing left to remove. -/
def removeCleared (t : Tree) (path : String) : Attempt :=
  let ending := (Path.steps path).reverse.dropWhile (· = "")
  match t.walk false maxLinks (t.start path) ending.reverse with
  | some (.present location, _) =>
    if ending.head? = some "." ∨ ending.head? = some ".." ∨ location.isPrefixOf t.base ∨
        ¬ t.hasDirectory location then
      ⟨t, false⟩
    else ⟨t.erase location, true⟩
  | _ => ⟨t, true⟩

/-- Removes what is at a path, a directory with all that is below it.  A directory that
holds the one at which paths begin is left alone. -/
def remove (t : Tree) (path : String) : Attempt :=
  match t.place? false path with
  | some (.present location) =>
    if t.hasDirectory location then
      if location.isPrefixOf t.base ∧ location ≠ t.base then ⟨t, false⟩
      else (t.clear location).removeCleared path
    else ⟨t.erase location, true⟩
  | _ => ⟨t, false⟩

end Tree
end ChangeImpact
