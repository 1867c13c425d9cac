/-
Why a text is not the JSON that was expected, and where.

A failure holds its cause and the text that was left when it was found, together
with the number of bytes by which its place lies beyond the beginning of what
was left.  Most failures lie either there or one byte further, at a byte that
was looked at.  Lines count from one; columns count the bytes of the line up to
the place.
-/
import ChangeImpact.Text.Quoted

namespace ChangeImpact
namespace Json

inductive Found where
  | null
  | boolean (b : Bool)
  | integer (n : Int)
  /-- A number with a fraction, an exponent or too many digits, by its shortest
  digits. -/
  | float (digits : String)
  | string (s : String)
  | sequence
  | map
deriving DecidableEq, Repr

inductive Expected where
  | string
  | sequence
  | unit
  | record (title : String)
deriving DecidableEq, Repr

inductive Cause where
  | endInValue
  | endInString
  | endInList
  | endInObject
  | expectedColon
  | expectedListCommaOrEnd
  | expectedObjectCommaOrEnd
  | expectedIdent
  | expectedValue
  | invalidEscape
  | invalidNumber
  | numberOutOfRange
  | loneSurrogate
  | endOfHexEscape
  | controlCharacter
  | keyMustBeString
  | trailingComma
  | trailingCharacters
  | invalidType (found : Found) (expected : Expected)
  | invalidLength (length : Nat) (title : String) (fields : Nat)
  | unknownVariant (word : String) (known : List String)
  | missingField (name : String)
  | duplicateField (name : String)
deriving DecidableEq, Repr

/-- The three sorts of causes: the text ended too early, it is not JSON, or it is
JSON of another shape. -/
inductive Category where
  | eof
  | syntaxError
  | data
deriving DecidableEq, Repr

def Category.word : Category → String
  | .eof => "eof"
  | .syntaxError => "syntax"
  | .data => "data"

def Found.text : Found → String
  | .null => "null"
  | .boolean b => "boolean `" ++ toString b ++ "`"
  | .integer n => "integer `" ++ toString n ++ "`"
  | .float digits => "floating point `" ++ digits ++ "`"
  | .string s => "string " ++ Text.quoted s
  | .sequence => "sequence"
  | .map => "map"

def Expected.text : Expected → String
  | .string => "a string"
  | .sequence => "a sequence"
  | .unit => "unit"
  | .record title => "struct " ++ title

namespace Cause

def text : Cause → String
  | endInValue => "EOF while parsing a value"
  | endInString => "EOF while parsing a string"
  | endInList => "EOF while parsing a list"
  | endInObject => "EOF while parsing an object"
  | expectedColon => "expected `:`"
  | expectedListCommaOrEnd => "expected `,` or `]`"
  | expectedObjectCommaOrEnd => "expected `,` or `\x7d`"
  | expectedIdent => "expected ident"
  | expectedValue => "expected value"
  | invalidEscape => "invalid escape"
  | invalidNumber => "invalid number"
  | numberOutOfRange => "number out of range"
  | loneSurrogate => "lone leading surrogate in hex escape"
  | endOfHexEscape => "unexpected end of hex escape"
  | controlCharacter => "control character (\\u0000-\\u001F) found while parsing a string"
  | keyMustBeString => "key must be a string"
  | trailingComma => "trailing comma"
  | trailingCharacters => "trailing characters"
  | invalidType found expected => "invalid type: " ++ found.text ++ ", expected " ++ expected.text
  | invalidLength n title fields =>
    "invalid length " ++ toString n ++ ", expected struct " ++ title ++ " with " ++
      toString fields ++ " elements"
  | unknownVariant word known =>
    "unknown variant `" ++ word ++ "`, expected one of " ++
      ", ".intercalate (known.map fun k => "`" ++ k ++ "`")
  | missingField name => "missing field `" ++ name ++ "`"
  | duplicateField name => "duplicate field `" ++ name ++ "`"

def category : Cause → Category
  | endInValue | endInString | endInList | endInObject => .eof
  | invalidType .. | invalidLength .. | unknownVariant .. | missingField .. | duplicateField .. =>
    .data
  | _ => .syntaxError

end Cause

/-- A cause with its place in the text. -/
structure Failure where
  cause : Cause
  rest : List Char
  /-- How many bytes the place lies beyond the beginning of `rest`. -/
  ahead : Nat
deriving DecidableEq, Repr

namespace Failure

/-- A failure where the rest of the text begins. -/
def here (c : Cause) (rest : List Char) : Failure := ⟨c, rest, 0⟩

/-- A failure at the first byte of the rest. -/
def next (c : Cause) (rest : List Char) : Failure := ⟨c, rest, 1⟩

end Failure

structure Position where
  line : Nat
  column : Nat
deriving DecidableEq, Repr

namespace Position

def advance (p : Position) (c : Char) : Position :=
  if c = '\n' then ⟨p.line + 1, 0⟩ else ⟨p.line, p.column + c.utf8Size⟩

/-- The place `n` bytes beyond `p`, or at the end if the text is shorter.  It may lie
inside a character. -/
def after (p : Position) (n : Nat) : List Char → Position
  | [] => p
  | c :: r => if n < c.utf8Size then ⟨p.line, p.column + n⟩ else after (p.advance c) (n - c.utf8Size) r

/-- The place `n` bytes into a text. -/
def ofOffset (text : List Char) (n : Nat) : Position :=
  after ⟨1, 0⟩ n text

end Position

def byteSize (s : List Char) : Nat :=
  s.foldl (fun n c => n + c.utf8Size) 0

/-- The place of a failure in the text that was read. -/
def Failure.position (f : Failure) (text : List Char) : Position :=
  .ofOffset text (byteSize text - byteSize f.rest + f.ahead)

structure Refusal where
  cause : Cause
  position : Position
deriving DecidableEq, Repr

def Refusal.message (r : Refusal) : String :=
  r.cause.text ++ " at line " ++ toString r.position.line ++ " column " ++
    toString r.position.column

end Json
end ChangeImpact
