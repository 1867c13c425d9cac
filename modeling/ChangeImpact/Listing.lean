/-
Listings of the registry and the triggers.

The text listing has columns of 20 and 24 characters; a longer entry shifts the
rest of its row.  The JSON listing holds the same entries, its keys in
alphabetical order.
-/
import ChangeImpact.Json.Value
import ChangeImpact.Registry
import ChangeImpact.Report.Basic
import ChangeImpact.Text.Padded

namespace ChangeImpact

def Listing.row (name job testOnly : String) : String :=
  "  " ++ Text.column 20 name ++ " " ++ Text.column 24 job ++ " " ++ testOnly ++ "\n"

def Listing.crateRow (name : String) : String :=
  Listing.row name (Token.full name).text (Token.testOnly name).text

def Listing.triggerRow (t : Trigger) : String :=
  "  " ++ Text.column 20 t.suffix ++ " " ++ t.job.text ++ "\n"

def Registry.toJson (r : Registry) : Json :=
  .object [("root", .string r.root), ("crates", .array (r.crates.map .string))]

def Trigger.toJson (t : Trigger) : Json :=
  .object [("suffix", .string t.suffix), ("job", t.job.toJson)]

namespace Config

def listingText (c : Config) : String :=
  "Registered crates (root: " ++ c.registry.root ++ "):\n\n" ++
    Listing.row "CRATE" "JOB" "TEST-ONLY JOB" ++
    Listing.row "-----" "---" "-------------" ++
    String.join (c.registry.crates.map Listing.crateRow) ++
    "\nTriggers:\n\n" ++
    String.join (c.triggers.map Listing.triggerRow)

def crateEntry (r : Registry) (name : String) : Json :=
  .object [
    ("job", (Token.full name).toJson),
    ("name", .string name),
    ("prefix", .string (r.start name)),
    ("test_only_job", (Token.testOnly name).toJson)]

def triggerEntry (t : Trigger) : Json :=
  .object [("job", t.job.toJson), ("suffix", .string t.suffix)]

def listing (c : Config) : Json :=
  .object [
    ("crates", .array (c.registry.crates.map (crateEntry c.registry))),
    ("root", .string c.registry.root),
    ("triggers", .array (c.triggers.map triggerEntry))]

def toJson (c : Config) : Json :=
  .object [
    ("registry", c.registry.toJson),
    ("native", c.native.toJson),
    ("dsl", c.dsl.toJson)]

end Config
end ChangeImpact
