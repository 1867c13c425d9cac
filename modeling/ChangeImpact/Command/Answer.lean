/-
What each command prints and changes.

A selection prints its echo lines as it goes, so the text that was read appears
even if it is no change set.  Nothing else is printed before the change set is
known, and the files are changed at the end.
-/
import ChangeImpact.Announcement
import ChangeImpact.Catalog
import ChangeImpact.Command.Invocation
import ChangeImpact.Command.Transcript
import ChangeImpact.Listing
import ChangeImpact.Report.Summary

namespace ChangeImpact

namespace Settings

/-- Whether the echo lines are printed: only beside the line that publishes the jobs. -/
def showsEcho (s : Settings) : Bool :=
  s.echo && s.format = .github

def echoLine (s : Settings) (line : String) : String :=
  if s.showsEcho then line ++ "\n" else ""

/-- The selection as it is printed after the first two echo lines. -/
def publish (s : Settings) (r : Report) : String :=
  match s.format with
  | .github =>
    s.echoLine (Announcement.echoJobs r.jobs) ++ Announcement.setOutput s.name r.jobs ++ "\n"
  | .json => r.toJson.pretty ++ "\n"

end Settings

namespace Command

namespace Selecting

/-- The root below which the settings file is looked for. -/
def rootPath (o : Selecting) : String :=
  o.root.getD currentDirectory

def settingsPath (o : Selecting) : String :=
  Settings.pathBelow o.rootPath

def settings (o : Selecting) (source : Settings.Source) : Except Failure Settings :=
  match Settings.loadOrDefault o.settingsPath source with
  | .error fault => .error (.settings fault)
  | .ok file => (file.merge o.format o.quiet).mapError .outputName

/-- The report on a change set, by the catalog. -/
def report (paths : ChangeSet) : Report :=
  Report.ofMatches .current (Catalog.config.select paths)

/-- The entry of a selection for the output file. -/
def entry? (o : Selecting) (s : Settings) (r : Report) : Option Effect :=
  o.output.map fun path => .append path (Announcement.outputEntry s.name r.jobs)

def summary? (o : Selecting) (r : Report) : Option Effect :=
  o.summary.map fun path => .replace path r.summary

/-- Selects the jobs for the change set in a text. -/
def respond (o : Selecting) (s : Settings) (raw : String) : Transcript := do
  .print (s.echoLine (Announcement.echoInput raw))
  let paths ← .ofExcept ((ChangeSet.read raw).mapError .changes)
  .print (s.echoLine (Announcement.echoChanges paths))
  .print (s.publish (report paths))
  .change? (o.entry? s (report paths))
  .change? (o.summary? (report paths))

/-- Selects the jobs for the change set on the standard input. -/
def answer (o : Selecting) (source : Settings.Source) (stdin : ByteArray)
    (interactive : Bool) : Transcript := do
  let s ← .ofExcept (o.settings source)
  let raw ← .ofExcept ((Input.read stdin interactive Input.maxBytes).mapError .input)
  o.respond s raw

end Selecting

def Enumerating.answer (o : Enumerating) : Transcript :=
  match o.format.getD .text with
  | .text => .print Catalog.config.listingText
  | .json => .print (Catalog.config.listing.pretty ++ "\n")

namespace Checking

/-- The root below which the crates are looked for. -/
def rootPath (o : Checking) : String :=
  o.root.getD currentDirectory

/-- Where the crates of the catalog are listed. -/
def shelf (o : Checking) : Registry.Shelf :=
  Registry.shelf o.rootPath Catalog.registry.root

/-- Compares the catalog with the listing of the directory of the crates. -/
def answer (o : Checking) (listing : Option (List Entry)) : Transcript := do
  let d ← .ofExcept ((Catalog.registry.drift o.shelf listing).mapError (.crates o.rootPath))
  .print d.text
  if d.isClean then return
  .ofExcept (.error (.drift d.missing.length d.unregistered.length))

end Checking
end Command
end ChangeImpact
