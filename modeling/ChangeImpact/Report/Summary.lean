/-
The summary of a report for readers, in Markdown.

After a title and the number of jobs stands either a remark that no job was
selected or a table with one row per match.  Tokens and paths stand in the table
as they are, between back quotes.
-/
import ChangeImpact.Report.Basic

namespace ChangeImpact

def Match.row (m : Match) : String :=
  "| `" ++ m.job.text ++ "` | " ++ m.kind.label ++ " | `" ++ m.path ++ "` |\n"

namespace Report

/-- The title and the number of jobs. -/
def summaryHead (r : Report) : String :=
  "# testscope selection\n\n- Jobs: " ++ toString r.jobs.length ++ "\n\n"

/-- The remark or the table. -/
def summaryBody (r : Report) : String :=
  if r.found.isEmpty then "_No jobs selected._\n"
  else
    "| Job | Kind | Triggered by |\n|---|---|---|\n" ++ String.join (r.found.map Match.row)

def summary (r : Report) : String :=
  r.summaryHead ++ r.summaryBody

end Report
end ChangeImpact
