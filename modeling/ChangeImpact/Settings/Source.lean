/-
Settings files on disk.

The settings file of a run lies at a fixed name below a root.  Without one the
defaults hold.  A file that is there must be readable as UTF-8 and must fit.
-/
import ChangeImpact.Files.Path
import ChangeImpact.Settings

namespace ChangeImpact
namespace Settings

/-- What is found where a settings file is looked for. -/
inductive Source where
  | missing
  /-- There is something, but no file that can be read. -/
  | unreadable
  | content (bytes : ByteArray)

inductive LoadFault where
  | unreadable (path : String)
  | malformed (path : String)
deriving DecidableEq, Repr

def LoadFault.message : LoadFault → String
  | .unreadable path => "read config file " ++ path
  | .malformed path => "parse config file " ++ path

def pathBelow (root : String) : String :=
  Path.join root fileName

def load (path : String) : Source → Except LoadFault Settings
  | .missing | .unreadable => .error (.unreadable path)
  | .content bytes =>
    match String.fromUTF8? bytes with
    | none => .error (.unreadable path)
    | some text =>
      match read? text with
      | none => .error (.malformed path)
      | some s => .ok s

def loadOrDefault (path : String) : Source → Except LoadFault Settings
  | .missing => .ok {}
  | s => load path s

end Settings
end ChangeImpact
