/-
What a command does: the text that it prints and the files that it changes, in this
order, and the failure that ends it.

A command is a script.  Its steps are put one behind the other, and a step that fails is
the last.  A script is a value: its actions are carried out afterwards, one by one, and
the first action that fails ends the command as well.  What was done before stays done.
-/
import ChangeImpact.Files.Lookup
import ChangeImpact.Input
import ChangeImpact.Text.Lines
import ChangeImpact.Text.Terminal

namespace ChangeImpact
namespace Command

/-- The steps in which a text is appended to a file. -/
inductive Stage where
  | opening
  | writing
deriving DecidableEq, Repr

inductive Failure where
  | settings (fault : Settings.LoadFault)
  | outputName (fault : Settings.NameFault)
  | input (fault : Input.Fault)
  | changes (fault : Input.Fault)
  | append (path : String) (stage : Stage)
  | replace (path : String)
  | crates (root : String) (fault : Registry.Unlisted)
  | drift (missing unregistered : Nat)
deriving DecidableEq, Repr

def Failure.message : Failure → String
  | .settings _ => "load " ++ Settings.fileName ++ " config"
  | .outputName fault => fault.message
  | .input _ => "read changed files from stdin"
  | .changes _ => "parse changed files"
  | .append path .opening => "open " ++ path
  | .append path .writing | .replace path => "write " ++ path
  | .crates root _ => "check registry against " ++ root
  | .drift missing unregistered =>
    "registry drift: " ++ toString missing ++ " missing, " ++ toString unregistered ++
      " unregistered"

/-- What a failure shows in the log: the first line of its message, for a terminal. -/
def Failure.logLine (f : Failure) : String :=
  let line := (Text.lines (f.message.toList ++ ['\n'])).headD []
  String.ofList (Text.forTerminal line)

/-! ## Changes of files -/

inductive Effect where
  | append (path text : String)
  | replace (path text : String)
deriving DecidableEq, Repr

/-- A failure, and the tree that it leaves. -/
structure Halt where
  failure : Failure
  tree : Tree

def Halt.message (h : Halt) : String :=
  h.failure.message

namespace Effect

def path : Effect → String
  | .append path _ | .replace path _ => path

def draft : Effect → Tree.Draft
  | .append _ text => ⟨true, text.toUTF8⟩
  | .replace _ text => ⟨false, text.toUTF8⟩

/-- Only for an appending the steps are told apart. -/
def failure : Effect → Stage → Failure
  | .append path _, stage => .append path stage
  | .replace path _, _ => .replace path

def apply (t : Tree) (e : Effect) : Except Halt Tree :=
  match t.write e.path e.draft with
  | .unopened => .error ⟨e.failure .opening, t⟩
  | .cut after => .error ⟨e.failure .writing, after⟩
  | .whole after => .ok after

end Effect

/-! ## Scripts -/

inductive Action where
  | print (text : String)
  | change (effect : Effect)
deriving DecidableEq, Repr

/-- What an action prints. -/
def Action.printed : Action → String
  | .print text => text
  | .change _ => ""

/-- Some steps of a command: their actions, and what comes out of them or the failure of
the last. -/
structure Script (α : Type) where
  actions : List Action
  result : Except Failure α

/-- All that a command does. -/
abbrev Transcript := Script Unit

namespace Script

instance : Monad Script where
  pure a := ⟨[], .ok a⟩
  bind first next :=
    match first.result with
    | .ok a => ⟨first.actions ++ (next a).actions, (next a).result⟩
    | .error f => ⟨first.actions, .error f⟩

/-- A step that has no action. -/
def ofExcept {α : Type} (result : Except Failure α) : Script α :=
  ⟨[], result⟩

def print (text : String) : Transcript :=
  ⟨[.print text], .ok ()⟩

/-- The change of a file, if there is one to be made. -/
def change? (effect? : Option Effect) : Transcript :=
  ⟨(effect?.map Action.change).toList, .ok ()⟩

/-- What is printed if no action fails. -/
def printed {α : Type} (s : Script α) : String :=
  String.join (s.actions.map Action.printed)

/-- The failure of the last step. -/
def failure? {α : Type} (s : Script α) : Option Failure :=
  match s.result with
  | .ok _ => none
  | .error f => some f

end Script

/-! ## Carrying out -/

/-- What has been printed, and what has become of the tree. -/
structure Progress where
  printed : String
  tree : Tree

def Action.perform (p : Progress) : Action → Progress × Option Failure
  | .print text => ({ p with printed := p.printed ++ text }, none)
  | .change effect =>
    match effect.apply p.tree with
    | .ok after => ({ p with tree := after }, none)
    | .error halt => ({ p with tree := halt.tree }, some halt.failure)

/-- Performs actions one after the other, up to the first that fails. -/
def performAll (p : Progress) : List Action → Progress × Option Failure
  | [] => (p, none)
  | a :: as =>
    match a.perform p with
    | (p, none) => performAll p as
    | (p, some f) => (p, some f)

section

variable {printed : String} {t after : Tree} {e : Effect}

theorem performAll_print (text : String) (as : List Action) :
    performAll ⟨printed, t⟩ (.print text :: as) = performAll ⟨printed ++ text, t⟩ as :=
  rfl

theorem performAll_of_ok (h : e.apply t = .ok after) (as : List Action) :
    performAll ⟨printed, t⟩ (.change e :: as) = performAll ⟨printed, after⟩ as := by
  rw [performAll, Action.perform, h]

/-- The actions behind a change that fails are not performed. -/
theorem performAll_of_error {halt : Halt} (h : e.apply t = .error halt) (as : List Action) :
    performAll ⟨printed, t⟩ (.change e :: as) = (⟨printed, halt.tree⟩, some halt.failure) := by
  rw [performAll, Action.perform, h]

end

/-- The tree after changes of files, and the failure that ended them. -/
def applyAll (t : Tree) (effects : List Effect) : Tree × Option Failure :=
  let (p, failure?) := performAll ⟨"", t⟩ (effects.map .change)
  (p.tree, failure?)

theorem applyAll_cons_of_ok {t between : Tree} {e : Effect} (h : e.apply t = .ok between)
    (es : List Effect) : applyAll t (e :: es) = applyAll between es := by
  rw [applyAll, List.map_cons, performAll_of_ok h, applyAll]

/-- Changes that all succeed begin with one that does. -/
theorem exists_apply_of_applyAll_cons {t after : Tree} {e : Effect} {es : List Effect}
    (h : applyAll t (e :: es) = (after, none)) :
    ∃ between, e.apply t = .ok between ∧ applyAll between es = (after, none) := by
  cases happly : e.apply t with
  | ok between =>
    rw [applyAll_cons_of_ok happly] at h
    exact ⟨between, rfl, h⟩
  | error halt =>
    rw [applyAll, List.map_cons, performAll_of_error happly] at h
    cases h

end Command
end ChangeImpact
