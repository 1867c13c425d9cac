/-
The changed paths of one revision.

Paths are taken as they are given, in their order and with repetitions.  Their
written form is a JSON array of strings.
-/
import ChangeImpact.Json.Value

namespace ChangeImpact

/-- The changed paths, in the order in which they were supplied. -/
abbrev ChangeSet := List String

namespace ChangeSet

def toJson (paths : ChangeSet) : Json :=
  .array (paths.map .string)

/-- The paths as the text of a JSON array, literal by literal. -/
def write (paths : ChangeSet) : String :=
  "[" ++ ",".intercalate (paths.map Json.quote) ++ "]"

theorem compact_toJson (paths : ChangeSet) : paths.toJson.compact = paths.write := by
  simp [toJson, write, Json.compact, Function.comp_def]

end ChangeSet
end ChangeImpact
