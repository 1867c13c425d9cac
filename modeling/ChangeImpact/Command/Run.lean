/-
A run of the program on a tree of files.
-/
import ChangeImpact.Command.Answer

namespace ChangeImpact
namespace Command

inductive Exit where
  | success
  | failed (f : Failure)
  | misused
deriving DecidableEq, Repr

def Exit.code : Exit → Nat
  | .success => 0
  | .failed _ => 1
  | .misused => 2

structure Outcome where
  printed : String
  exit : Exit
deriving DecidableEq, Repr

def versionLine : String :=
  Tool.current.name ++ " " ++ Tool.current.version.getD "" ++ "\n"

/-- What is left to do when there is no command.  Help is not part of the output. -/
def Stop.outcome : Stop → Outcome
  | .help => ⟨"", .success⟩
  | .version => ⟨versionLine, .success⟩
  | .wrong => ⟨"", .misused⟩

/-- What a command prints and changes, by what it finds in the tree.  The standard input
of a run on a tree is no terminal. -/
def Invocation.answer (t : Tree) (stdin : ByteArray) : Invocation → Transcript
  | .select o => o.answer (t.settingsSource o.settingsPath) stdin false
  | .listCrates o => o.answer
  | .checkRegistry o => o.answer (t.list? o.shelf.directory)

/-- How a command ends, with a failure or without one. -/
def ended : Progress × Option Failure → Outcome × Tree
  | (p, none) => (⟨p.printed, .success⟩, p.tree)
  | (p, some f) => (⟨p.printed, .failed f⟩, p.tree)

/-- Carries out a script.  Unless one of its actions fails, it ends as its last step did. -/
def Transcript.carryOut (t : Tree) (s : Transcript) : Outcome × Tree :=
  let (p, failure?) := performAll ⟨"", t⟩ s.actions
  ended (p, failure?.or s.failure?)

/-- Runs the program.  The output variable of the environment holds `outputFile`. -/
def run (t : Tree) (outputFile : Option String) (arguments : List String)
    (stdin : ByteArray) : Outcome × Tree :=
  match Invocation.read arguments with
  | .error stop => (stop.outcome, t)
  | .ok i => ((i.withOutputVariable outputFile).answer t stdin).carryOut t

end Command
end ChangeImpact
