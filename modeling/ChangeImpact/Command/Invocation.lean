/-
The commands of the program and their options.
-/
import ChangeImpact.Command.Arguments
import ChangeImpact.Settings

namespace ChangeImpact
namespace Command

/-- The root that holds unless one is given. -/
def currentDirectory : String := "."

/-- The environment variable that names the output file unless an option does. -/
def outputVariable : String := "TESTSCOPE_GITHUB_OUTPUT"

structure Selecting where
  root : Option String := none
  format : Option OutputFormat := none
  /-- The file to which the entry with the jobs is appended. -/
  output : Option String := none
  /-- The file to which the summary is written. -/
  summary : Option String := none
  quiet : Bool := false
deriving DecidableEq, Repr

inductive ListFormat where
  | text
  | json
deriving DecidableEq, Repr

def ListFormat.ofWord? : String → Option ListFormat
  | "text" => some .text
  | "json" => some .json
  | _ => none

structure Enumerating where
  format : Option ListFormat := none
deriving DecidableEq, Repr

structure Checking where
  root : Option String := none
deriving DecidableEq, Repr

inductive Invocation where
  | select (options : Selecting)
  | listCrates (options : Enumerating)
  | checkRegistry (options : Checking)
deriving DecidableEq, Repr

namespace Selecting

def setQuiet (s : Selecting) : Option Selecting :=
  if s.quiet then none else some { s with quiet := true }

def grammar : Grammar Selecting where
  long?
    | "repo-root" => some (.valued fun s v => (once? s.root v).map fun r => { s with root := r })
    | "format" =>
      some (.valued fun s v => do
        let format ← once? s.format (← OutputFormat.ofWord? v)
        return { s with format })
    | "github-output" =>
      some (.valued fun s v => (once? s.output v).map fun o => { s with output := o })
    | "summary" =>
      some (.valued fun s v => (once? s.summary v).map fun m => { s with summary := m })
    | "quiet" => some (.flag setQuiet)
    | _ => none
  short?
    | 'q' => some setQuiet
    | _ => none

end Selecting

def Enumerating.grammar : Grammar Enumerating where
  long?
    | "format" =>
      some (.valued fun s v => do
        let format ← once? s.format (← ListFormat.ofWord? v)
        return { s with format })
    | _ => none
  short? _ := none

def Checking.grammar : Grammar Checking where
  long?
    | "repo-root" => some (.valued fun s v => (once? s.root v).map fun r => { s with root := r })
    | _ => none
  short? _ := none

namespace Invocation

def names : List String :=
  ["select", "list-crates", "check-registry", "help"]

def readCommand (name : String) (words : List String) : Except Stop Invocation :=
  match name with
  | "select" => (Selecting.grammar.read {} words).map .select
  | "list-crates" => (Enumerating.grammar.read {} words).map .listCrates
  | "check-registry" => (Checking.grammar.read {} words).map .checkRegistry
  | "help" =>
    match words with
    | [] => .error .help
    | [topic] => .error (if topic ∈ names then .help else .wrong)
    | _ => .error .wrong
  | _ => .error .wrong

/-- Reads a command line.  Before the name of the command only the questions for help
and for the version may stand, and each is answered at once. -/
def read : List String → Except Stop Invocation
  | [] => .error .wrong
  | word :: rest =>
    match Word.ofText word with
    | .plain name => readCommand name rest
    | .long "help" none => .error .help
    | .long "version" none => .error .version
    | .cluster ('h' :: _) => .error .help
    | .cluster ('V' :: _) => .error .version
    | _ => .error .wrong

/-- Takes what the command line leaves open from the environment. -/
def withOutputVariable (value : Option String) : Invocation → Invocation
  | .select o => .select { o with output := o.output.or value }
  | i => i

end Invocation

def usage : List String := [
  "Usage: testscope <COMMAND>",
  "",
  "Commands:",
  "  select          Read a JSON array of changed paths and print the jobs to run",
  "    --repo-root <DIR>       directory that holds testscope.toml (default: .)",
  "    --format <FORMAT>       github or json (default: from testscope.toml)",
  "    --github-output <FILE>  also append the jobs to this file",
  "    --summary <FILE>        also write a summary to this file",
  "    -q, --quiet             print no echo lines",
  "  list-crates     List the registered crates and the triggers",
  "    --format <FORMAT>       text or json (default: text)",
  "  check-registry  Compare the registry with the crates on disk",
  "    --repo-root <DIR>       directory that holds the crates (default: .)"]

end Command
end ChangeImpact
