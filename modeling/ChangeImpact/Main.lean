/-
The command line program.

It looks up the one file or directory that a command asks about, hands it over
together with the standard input, and carries out what comes back.
-/
import ChangeImpact.Command.Run

namespace ChangeImpact
namespace Main

open Command

/-- What is found where a settings file is looked for. -/
def settingsSource (path : String) : BaseIO Settings.Source := do
  match ← (IO.FS.realPath path).toBaseIO with
  | .error _ => return .missing
  | .ok _ =>
    match ← (IO.FS.readBinFile path).toBaseIO with
    | .ok bytes => return .content bytes
    | .error _ => return .unreadable

/-- The entries of a directory. -/
def entries (directory : String) : IO (List Entry) := do
  let place ← IO.FS.realPath directory
  (← place.readDir).toList.mapM fun e => do
    let kind := (← e.path.symlinkMetadata).type
    return ⟨e.fileName, kind == .dir⟩

/-- The entries of a directory, if it can be listed. -/
def listing (directory : String) : BaseIO (Option (List Entry)) := do
  match ← (entries directory).toBaseIO with
  | .ok es => return some es
  | .error _ => return none

/-- At most this many bytes of the standard input, in pieces. -/
def readInput (limit : Nat) : IO ByteArray := do
  let stdin ← IO.getStdin
  let mut bytes := ByteArray.empty
  for _ in [0:limit] do
    if limit ≤ bytes.size then break
    let piece ← stdin.read 65536
    if piece.isEmpty then break
    bytes := bytes ++ piece
  return bytes

/-- What a command prints and changes. -/
def answer : Invocation → IO Transcript
  | .select o => do
    let source ← settingsSource o.settingsPath
    let interactive ← (← IO.getStdin).isTty
    let stdin ← if interactive then pure .empty else readInput (Input.maxBytes.toNat + 1)
    return o.answer source stdin interactive
  | .listCrates o => return o.answer
  | .checkRegistry o => return o.answer (← listing o.shelf.directory)

/-- Writes a text to a file, and tells the step that fails. -/
def write (path : String) (mode : IO.FS.Mode) (text : String) : BaseIO (Option Stage) := do
  match ← (IO.FS.Handle.mk path mode).toBaseIO with
  | .error _ => return some .opening
  | .ok file =>
    let writing : IO Unit := do
      file.putStr text
      file.flush
    match ← writing.toBaseIO with
    | .error _ => return some .writing
    | .ok () => return none

def change (e : Effect) : BaseIO (Option Failure) := do
  let stage ←
    match e with
    | .append path text => write path .append text
    | .replace path text => write path .write text
  return stage.map e.failure

/-- Performs actions up to the first that fails. -/
def performAll : List Action → IO (Option Failure)
  | [] => return none
  | .print text :: rest => do
    let stdout ← IO.getStdout
    stdout.putStr text
    stdout.flush
    performAll rest
  | .change e :: rest => do
    match ← change e with
    | some f => return some f
    | none => performAll rest

def carryOut (s : Transcript) : IO (Option Failure) := do
  return (← performAll s.actions).or s.failure?

/-- Runs the program on the arguments of its command line and gives the exit code. -/
def program (arguments : List String) : IO UInt32 := do
  match Invocation.read arguments with
  | .error stop =>
    if stop ≠ .version then IO.eprintln ("\n".intercalate usage)
    IO.print stop.outcome.printed
    return stop.outcome.exit.code.toUInt32
  | .ok i =>
    let output ← IO.getEnv outputVariable
    match ← carryOut (← answer (i.withOutputVariable output)) with
    | none => return 0
    | some f =>
      IO.eprintln ("error: " ++ f.logLine)
      return 1

end Main
end ChangeImpact

def main (arguments : List String) : IO UInt32 :=
  ChangeImpact.Main.program arguments
