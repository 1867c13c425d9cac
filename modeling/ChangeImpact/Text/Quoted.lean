/-
Texts as they are quoted inside messages.

A quoted text stands between double quotes, a quoted character between single
ones.  The quote in use and the backslash are written after a backslash, the
four common controls by their letter, and every other character that cannot be
seen on its own by its code point, so a message shows what a text holds.
-/
import ChangeImpact.Text.Invisible

namespace ChangeImpact
namespace Text

/-- The digits of a number to base sixteen, in lower case. -/
def hex (n : Nat) : List Char :=
  Nat.toDigits 16 n

/-- A character inside a text quoted with `q`. -/
def quotedChar (q c : Char) : List Char :=
  if c = q || c = '\\' then ['\\', c]
  else if c = '\x00' then ['\\', '0']
  else if c = '\t' then ['\\', 't']
  else if c = '\n' then ['\\', 'n']
  else if c = '\r' then ['\\', 'r']
  else if isInvisible c then ['\\', 'u', '\x7b'] ++ hex c.toNat ++ ['\x7d']
  else [c]

def quoted (s : String) : String :=
  String.ofList ('"' :: s.toList.flatMap (quotedChar '"') ++ ['"'])

def quotedSingle (c : Char) : String :=
  String.ofList ('\'' :: quotedChar '\'' c ++ ['\''])

end Text
end ChangeImpact
