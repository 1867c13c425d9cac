/-
Reading the arguments of a command.

A word of the command line is a long option, with its value after an equals sign
if there is one, a cluster of short options, the mark that ends the options, or
plain.  An option that takes a value finds it in its own word or in the next one,
which then must be plain.  The words are read in order and the first that is
wrong decides, so a question for help counts only up to there.
-/
import ChangeImpact.Text.Affix

namespace ChangeImpact
namespace Command

/-- Why the reading of arguments ends without a command. -/
inductive Stop where
  | help
  | version
  | wrong
deriving DecidableEq, Repr

inductive Word where
  | long (name : String) (value : Option String)
  | cluster (letters : List Char)
  | closing
  | plain (text : String)
deriving DecidableEq, Repr

/-- The form of a word.  A lone dash is plain. -/
def Word.ofText (text : String) : Word :=
  match text.toList with
  | '-' :: '-' :: [] => .closing
  | '-' :: '-' :: r =>
    match Text.splitFirst? ['='] r with
    | some (name, value) => .long (String.ofList name) (some (String.ofList value))
    | none => .long (String.ofList r) none
  | '-' :: c :: r => .cluster (c :: r)
  | _ => .plain text

/-- What an option does to the settings read so far.  It gives none if it is repeated or
if its value does not fit. -/
inductive Switch (σ : Type) where
  | flag (set : σ → Option σ)
  | valued (set : σ → String → Option σ)

structure Grammar (σ : Type) where
  long? : String → Option (Switch σ)
  /-- Short options take no value. -/
  short? : Char → Option (σ → Option σ)

namespace Grammar
variable {σ : Type}

def readCluster (g : Grammar σ) (s : σ) : List Char → Except Stop σ
  | [] => .ok s
  | c :: r =>
    if c = 'h' then .error .help
    else
      match (g.short? c).bind fun set => set s with
      | some s => g.readCluster s r
      | none => .error .wrong

/-- Reads the words after the name of a command. -/
def read (g : Grammar σ) (s : σ) : List String → Except Stop σ
  | [] => .ok s
  | word :: rest =>
    match Word.ofText word with
    | .plain _ => .error .wrong
    | .closing => if rest = [] then .ok s else .error .wrong
    | .cluster letters =>
      match g.readCluster s letters with
      | .ok s => g.read s rest
      | .error e => .error e
    | .long name value =>
      if name = "help" ∧ value = none then .error .help
      else
        match g.long? name, value with
        | some (.flag set), none =>
          match set s with
          | some s => g.read s rest
          | none => .error .wrong
        | some (.valued set), some v =>
          match set s v with
          | some s => g.read s rest
          | none => .error .wrong
        | some (.valued set), none =>
          match rest with
          | [] => .error .wrong
          | v :: rest =>
            match Word.ofText v with
            | .plain _ =>
              match set s v with
              | some s => g.read s rest
              | none => .error .wrong
            | _ => .error .wrong
        | _, _ => .error .wrong

end Grammar

/-- A value that is given at most once. -/
def once? {α : Type} (before : Option α) (given : α) : Option (Option α) :=
  match before with
  | none => some (some given)
  | some _ => none

end Command
end ChangeImpact
