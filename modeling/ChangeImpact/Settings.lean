/-
The settings of a run.

A settings file is a TOML document of which the table `output` counts; a key that
is left out takes its default, and other keys are ignored as long as their
numbers can be represented.  Options of the command line take precedence.  The
name under which the jobs are published must not contain anything that would end
it early where it is published.
-/
import ChangeImpact.Text.Blank
import ChangeImpact.Text.Quoted
import ChangeImpact.Toml.Reader

namespace ChangeImpact

inductive OutputFormat where
  /-- Echo lines and the line that publishes the jobs. -/
  | github
  | json
deriving DecidableEq, Repr

namespace OutputFormat

def word : OutputFormat → String
  | .github => "github"
  | .json => "json"

def ofWord? (w : String) : Option OutputFormat :=
  [OutputFormat.github, .json].find? fun f => f.word == w

theorem ofWord?_word (f : OutputFormat) : ofWord? f.word = some f := by
  cases f <;> decide

end OutputFormat

/-- What a settings file sets, and what a run goes by. -/
structure Settings where
  /-- The name under which the jobs are published. -/
  name : String := "jobs"
  echo : Bool := true
  format : OutputFormat := .github
deriving DecidableEq, Repr

namespace Settings

def fileName : String := "testscope.toml"

/-! ## Settings files -/

/-- The format that a value names: a string, or a table or array-like variant without
contents under the only key of a table. -/
def formatOf? : Toml.Value → Option OutputFormat
  | .string w => OutputFormat.ofWord? w
  | .table _ [(w, .table _ [])] | .table _ [(w, .array [])] => OutputFormat.ofWord? w
  | _ => none

def nameOf? : Toml.Value → Option String
  | .string s => some s
  | _ => none

def echoOf? : Toml.Value → Option Bool
  | .boolean b => some b
  | _ => none

def orDefault? {α : Type} (read : Toml.Value → Option α) (default : α) :
    Option Toml.Value → Option α
  | none => some default
  | some v => read v

def ofValues? (name echo format : Option Toml.Value) : Option Settings := do
  let name ← orDefault? nameOf? ({} : Settings).name name
  let echo ← orDefault? echoOf? ({} : Settings).echo echo
  let format ← orDefault? formatOf? ({} : Settings).format format
  return { name, echo, format }

/-- Settings from the value of the key `output`: a table, or an array of the values in
their order, of which those after the third are not looked at. -/
def ofOutput? : Toml.Value → Option Settings
  | .table _ entries =>
    if entries.all fun e => e.2.inRange then
      let value := Toml.Entries.get? entries
      ofValues? (value "name") (value "echo") (value "format")
    else none
  | .array items =>
    if (items.take 3).all Toml.Value.inRange then ofValues? items[0]? items[1]? items[2]?
    else none
  | .moment => some {}
  | _ => none

def ofDocument? (entries : Toml.Entries) : Option Settings :=
  if (entries.filter (·.1 ≠ "output")).all fun e => e.2.inRange then
    match Toml.Entries.get? entries "output" with
    | none => some {}
    | some v => ofOutput? v
  else none

def read? (text : String) : Option Settings :=
  (Toml.read? text).bind ofDocument?

/-! ## Settings of a run -/

inductive NameFault where
  | empty
  | disallowed (name : String) (c : Char)
deriving DecidableEq, Repr

def NameFault.message : NameFault → String
  | .empty => "output name must not be empty"
  | .disallowed name c =>
    "output name '" ++ name ++ "' contains disallowed character " ++ Text.quotedSingle c

/-- The characters that must not stand in a name. -/
def isDisallowed (c : Char) : Bool :=
  Text.isWhite c || c = ':' || c = '=' || c = ','

def nameFault? (name : String) : Option NameFault :=
  if name = "" then some .empty
  else (name.toList.find? isDisallowed).map (.disallowed name)

/-- The settings of a run: those of the file, with the format and the silence that the
command line asks for. -/
def merge (file : Settings) (format : Option OutputFormat) (quiet : Bool) :
    Except NameFault Settings :=
  match nameFault? file.name with
  | some f => .error f
  | none =>
    .ok {
      name := file.name
      echo := file.echo && !quiet
      format := format.getD file.format }

theorem nameFault?_eq_none_iff {name : String} :
    nameFault? name = none ↔ name ≠ "" ∧ ∀ c ∈ name.toList, isDisallowed c = false := by
  unfold nameFault?
  split <;> simp_all

theorem merge_eq_ok_iff {file s : Settings} {format : Option OutputFormat} {quiet : Bool} :
    file.merge format quiet = .ok s ↔ nameFault? file.name = none ∧
      s = ⟨file.name, file.echo && !quiet, format.getD file.format⟩ := by
  unfold merge
  cases nameFault? file.name with
  | some fault => simp
  | none => simp [eq_comm]

theorem merge_eq_error_iff {file : Settings} {format : Option OutputFormat} {quiet : Bool}
    {fault : NameFault} :
    file.merge format quiet = .error fault ↔ nameFault? file.name = some fault := by
  unfold merge
  cases nameFault? file.name <;> simp

end Settings
end ChangeImpact
