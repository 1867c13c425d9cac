/-
Paths of files.

A path is a text whose steps are cut at slashes; it is absolute if it begins with
one.  Joining keeps the second path alone if it is absolute and otherwise puts one
slash between the two, unless the first is empty or ends with a slash already.
-/
import ChangeImpact.Text.Split

namespace ChangeImpact
namespace Path

def isAbsolute (path : String) : Bool :=
  path.toList.head? == some '/'

/-- The path `rest` as seen from `base`. -/
def join (base rest : String) : String :=
  if isAbsolute rest then rest
  else
    match base.toList.getLast? with
    | none | some '/' => base ++ rest
    | some _ => base ++ "/" ++ rest

/-- The steps of a path.  An empty one stands where slashes meet the ends of the path
or each other. -/
def steps (path : String) : List String :=
  (Text.split '/' path.toList).map String.ofList

def maxNameBytes : Nat := 255

def maxBytes : Nat := 4095

/-- Whether a path can lead anywhere: the empty path, overlong paths and paths that hold
a null character cannot. -/
def isUsable (path : String) : Bool :=
  path ≠ "" && path.utf8ByteSize ≤ maxBytes && !path.toList.contains '\x00'

/-- Whether a step stays where it is. -/
def staysPut (step : String) : Bool :=
  step = "" || step = "."

end Path
end ChangeImpact
