/-
JSON values and their two layouts.

`compact` writes a value on one line without spaces.  `pretty` gives every item
and member a line of its own, two spaces further in than the bracket it stands
between; an empty array or object stays on one line.  Members are written in the
order in which they are given.
-/
import ChangeImpact.Json.Literal

namespace ChangeImpact

/-- The JSON values that are written here. -/
inductive Json where
  | null
  | string (s : String)
  | array (items : List Json)
  | object (members : List (String × Json))

namespace Json

def quote (s : String) : String :=
  String.ofList (literal s.toList)

def compact : Json → String
  | .null => "null"
  | .string s => quote s
  | .array items => "[" ++ ",".intercalate (items.map fun j => j.compact) ++ "]"
  | .object members =>
    "\x7b" ++ ",".intercalate (members.attach.map fun m => quote m.1.1 ++ ":" ++ m.1.2.compact) ++
      "\x7d"
termination_by j => sizeOf j
decreasing_by
  · simp_wf; have := List.sizeOf_lt_of_mem ‹_›; omega
  · simp_wf
    have h := List.sizeOf_lt_of_mem m.2
    have : sizeOf m.1.2 < sizeOf m.1 := by cases m.1; simp only [Prod.mk.sizeOf_spec]; omega
    omega

/-- The line break before an item at depth `n`. -/
def newline (n : Nat) : String :=
  String.ofList ('\n' :: List.replicate (2 * n) ' ')

/-- Items between brackets, each on a line of its own, where the brackets stand
at depth `n`. -/
def block (n : Nat) (opening closing : String) : List String → String
  | [] => opening ++ closing
  | items =>
    opening ++ newline (n + 1) ++ ("," ++ newline (n + 1)).intercalate items ++ newline n ++
      closing

/-- The value over several lines, its first line at depth `n`. -/
def prettyAt (n : Nat) : Json → String
  | .null => "null"
  | .string s => quote s
  | .array items => block n "[" "]" (items.map fun j => j.prettyAt (n + 1))
  | .object members =>
    block n "\x7b" "\x7d"
      (members.attach.map fun m => quote m.1.1 ++ ": " ++ m.1.2.prettyAt (n + 1))
termination_by j => sizeOf j
decreasing_by
  · simp_wf; have := List.sizeOf_lt_of_mem ‹_›; omega
  · simp_wf
    have h := List.sizeOf_lt_of_mem m.2
    have : sizeOf m.1.2 < sizeOf m.1 := by cases m.1; simp only [Prod.mk.sizeOf_spec]; omega
    omega

def pretty (j : Json) : String :=
  j.prettyAt 0

/-- A member that is left out when it has no value. -/
def member? (name : String) : Option Json → List (String × Json)
  | none => []
  | some j => [(name, j)]

end Json
end ChangeImpact
