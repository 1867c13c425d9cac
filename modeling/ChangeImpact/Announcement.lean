/-
Lines by which a selection is announced to a continuous integration service.

The job list is published under a name, either on a line of the standard output
(`setOutput`) or as an entry of an output file (`outputEntry`).  `readSetOutput`
finds the published list again in all that a run printed.  The echo lines show
what a run read and decided.
-/
import ChangeImpact.Report.Basic
import ChangeImpact.Text.Lines
import ChangeImpact.Text.Affix

namespace ChangeImpact
namespace Announcement

/-- The beginning of the line that publishes a list. -/
def mark : String := "::set-output name="

/-- What separates the name from the list. -/
def separator : String := "::"

/-- The line that publishes a list under a name. -/
def setOutput (name : String) (jobs : JobList) : String :=
  mark ++ name ++ separator ++ jobs.joined

/-- The entry of an output file that publishes a list under a name. -/
def outputEntry (name : String) (jobs : JobList) : String :=
  name ++ "=" ++ jobs.joined ++ "\n"

/-- The name and the list on the first publishing line of a text.  Later lines do
not count, even if the first one has no separator. -/
def readSetOutput (printed : String) : Option (String × String) :=
  match (Text.lines printed.toList).findSome? (Text.dropWord? mark.toList) with
  | none => none
  | some rest =>
    (Text.splitFirst? separator.toList rest).map fun p =>
      (String.ofList p.1, String.ofList p.2)

def echoInput (raw : String) : String :=
  "stdin: " ++ raw

def echoChanges (paths : ChangeSet) : String :=
  "files changed: " ++ paths.toJson.compact

def echoJobs (jobs : JobList) : String :=
  "jobs to run: " ++ jobs.toJson.compact

end Announcement
end ChangeImpact
