/-
Reading the changed paths from the standard input.

At most one byte more than the limit is taken from the stream, and what was taken
must be UTF-8 as a whole: a character that is cut in two by the limit is no UTF-8
either.  Byte counts are words of 64 bits, so the greatest limit, which has no
successor, takes nothing at all.  A terminal counts as an empty input.  Blank text
is an empty change set, and any other text must be a JSON array of strings.
-/
import ChangeImpact.Report.Decoder
import ChangeImpact.Text.Blank

namespace ChangeImpact
namespace Input

/-- The greatest number of bytes that is accepted, 16 MiB. -/
def maxBytes : UInt64 := 16777216

inductive Fault where
  /-- The bytes are not UTF-8. -/
  | notUtf8
  | tooLarge (limit : UInt64)
  | malformed (refusal : Json.Refusal)
deriving DecidableEq, Repr

def Fault.message : Fault → String
  | .notUtf8 => "read input: stream did not contain valid UTF-8"
  | .tooLarge limit => "input exceeds " ++ toString limit.toNat ++ " bytes"
  | .malformed r => "input is not a JSON array of strings: " ++ r.message

def read (stream : ByteArray) (interactive : Bool) (limit : UInt64) : Except Fault String :=
  if interactive then .ok ""
  else
    match String.fromUTF8? (stream.extract 0 (limit + 1).toNat) with
    | none => .error .notUtf8
    | some text => if limit.toNat < text.utf8ByteSize then .error (.tooLarge limit) else .ok text

end Input

def ChangeSet.read (text : String) : Except Input.Fault ChangeSet :=
  if Text.IsBlank text.toList then .ok []
  else
    match ChangeSet.decoder.decode text with
    | .ok paths => .ok paths
    | .error r => .error (.malformed r)

end ChangeImpact
