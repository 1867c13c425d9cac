/-
White space: the characters with the Unicode property White_Space.

A text is blank when it holds nothing else.  The property is wider than the four
blanks of a JSON text or the two of a TOML line, which are defined with those
formats.
-/

namespace ChangeImpact
namespace Text

/-- The characters with the Unicode property White_Space. -/
def isWhite (c : Char) : Bool :=
  let n := c.toNat
  (0x09 ≤ n && n ≤ 0x0d) || n == 0x20 || n == 0x85 || n == 0xa0 || n == 0x1680 ||
    (0x2000 ≤ n && n ≤ 0x200a) || n == 0x2028 || n == 0x2029 || n == 0x202f ||
    n == 0x205f || n == 0x3000

def IsBlank (s : List Char) : Prop :=
  ∀ c ∈ s, isWhite c = true

instance (s : List Char) : Decidable (IsBlank s) :=
  decidable_of_iff (s.all isWhite = true) List.all_eq_true

end Text
end ChangeImpact
