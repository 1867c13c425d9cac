/-
The machine-readable report of one selection.

A report states its schema and the tool that made it, then the jobs and the
matches behind them.  `Report.ofMatches` reads the jobs off the matches, so both
lists agree in the reports that the tool makes; a report that is read from a text
may hold any two lists.
-/
import ChangeImpact.ChangeSet
import ChangeImpact.Selection

namespace ChangeImpact

structure Tool where
  name : String
  version : Option String
deriving DecidableEq, Repr

structure Report where
  schema : String
  tool : Tool
  jobs : JobList
  found : List Match
deriving DecidableEq, Repr

/-- The schema of the reports made here. -/
def Report.currentSchema : String := "testscope.selection.v1"

/-- The tool that is built from this library. -/
def Tool.current : Tool := ⟨"testscope", some "0.1.0"⟩

def Report.ofMatches (tool : Tool) (found : List Match) : Report where
  schema := Report.currentSchema
  tool
  jobs := found.map Match.job
  found

def Token.toJson (t : Token) : Json :=
  .string t.text

def Kind.toJson (k : Kind) : Json :=
  .string k.word

def JobList.toJson (l : JobList) : Json :=
  .array (l.map Token.toJson)

/-- A missing version is left out. -/
def Tool.toJson (t : Tool) : Json :=
  .object <| ("name", .string t.name) :: Json.member? "version" (t.version.map .string)

/-- The crate of a trigger's match is left out. -/
def Match.toJson (m : Match) : Json :=
  .object <|
    [("job", m.job.toJson), ("kind", m.kind.toJson)] ++
      Json.member? "crate_name" (m.crateName.map .string) ++
      [("path", .string m.path)]

def Report.toJson (r : Report) : Json :=
  .object [
    ("schema", .string r.schema),
    ("tool", r.tool.toJson),
    ("jobs", r.jobs.toJson),
    ("matches", .array (r.found.map Match.toJson))]

end ChangeImpact
