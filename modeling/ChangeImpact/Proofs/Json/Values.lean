/-
The grammar of JSON values of any kind.

`Value` derives every JSON text without blanks around it, nested to any depth.  Its
strings are `Quoted` only: an escape by a number may be one half of a pair alone, so not
all of them stand for characters.

`Object` splits a text into members, each a key and the text of its value; it says
nothing about that text, so the same relation serves for objects whose values are
known and for objects whose values are only passed over.
-/
import ChangeImpact.Proofs.Json.Grammar

namespace ChangeImpact
namespace Json

/-! ## Numbers -/

/-- One or more digits. -/
def Digits (t : List Char) : Prop :=
  t ≠ [] ∧ ∀ c ∈ t, c.isDigit = true

/-- Zero, or digits of which the first is not zero. -/
def Natural (t : List Char) : Prop :=
  t = ['0'] ∨ (Digits t ∧ t.head? ≠ some '0')

/-- A point with digits, or nothing. -/
def Fraction (t : List Char) : Prop :=
  t = [] ∨ ∃ ds, Digits ds ∧ t = '.' :: ds

/-- A letter with a sign or none and with digits, or nothing. -/
def Exponent (t : List Char) : Prop :=
  t = [] ∨ ∃ e sign ds, (e = 'e' ∨ e = 'E') ∧ (sign = [] ∨ sign = ['+'] ∨ sign = ['-']) ∧
    Digits ds ∧ t = e :: (sign ++ ds)

def Numeral (t : List Char) : Prop :=
  ∃ sign n f e, (sign = [] ∨ sign = ['-']) ∧ Natural n ∧ Fraction f ∧ Exponent e ∧
    t = sign ++ (n ++ (f ++ e))

/-! ## Literals of any kind -/

/-- The inside of a literal that need not stand for characters. -/
inductive Inside : List Char → Prop
  | nil : Inside []
  | plain {c : Char} {t : List Char} :
      c ≠ '"' → c ≠ '\\' → 0x20 ≤ c.toNat → Inside t → Inside (c :: t)
  | short {e c : Char} {t : List Char} :
      (e, c) ∈ shortEscapes → Inside t → Inside ('\\' :: e :: t)
  | unit {a b c d : Char} {n : Nat} {t : List Char} :
      hexValues? a b c d = some n → Inside t → Inside ('\\' :: 'u' :: a :: b :: c :: d :: t)

def Quoted (t : List Char) : Prop :=
  ∃ body, Inside body ∧ t = '"' :: (body ++ ['"'])

/-! ## Values -/

/-- A member of an object: its key, colon and value.  `K` ties the text of a key to what
it is taken for. -/
def IsMember {κ : Type} (K : List Char → κ → Prop) (t : List Char) (m : κ × List Char) : Prop :=
  ∃ k v w, K k m.1 ∧ Blanks v ∧ Blanks w ∧ t = k ++ (v ++ ':' :: (w ++ m.2))

/-- An object with its members. -/
abbrev Object : List Char → List (String × List Char) → Prop :=
  Bracketed '\x7b' '\x7d' (IsMember IsLiteral)

inductive Value : List Char → Prop
  | word {w : String} : w ∈ ["null", "true", "false"] → Value w.toList
  | number {t : List Char} : Numeral t → Value t
  | string {t : List Char} : Quoted t → Value t
  | array {t : List Char} {us : List (List Char)} :
      Sequence Eq t us → (∀ u ∈ us, Value u) → Value t
  | object {t : List Char} {ms : List (List Char × List Char)} :
      Bracketed '\x7b' '\x7d' (IsMember Eq) t ms → (∀ m ∈ ms, Quoted m.1) →
      (∀ m ∈ ms, Value m.2) → Value t

/-- An array of values, with their texts. -/
def ValidArray (t : List Char) (us : List (List Char)) : Prop :=
  Sequence Eq t us ∧ ∀ u ∈ us, Value u

/-- An object of values, with its members. -/
def ValidObject (t : List Char) (ms : List (String × List Char)) : Prop :=
  Object t ms ∧ ∀ m ∈ ms, Value m.2

theorem Escape.inside_append {e t : List Char} {c : Char} (h : Escape e c) (ht : Inside t) :
    Inside ('\\' :: (e ++ t)) := by
  cases h with
  | short hm => exact .short hm ht
  | unit hn _ => exact .unit hn ht
  | pair hhigh _ _ hlow _ _ => exact .unit hhigh (.unit hlow ht)

theorem Chars.inside {t s : List Char} (h : Chars t s) : Inside t := by
  induction h with
  | nil => exact .nil
  | plain hquote hslash hc _ ih => exact .plain hquote hslash hc ih
  | escape he _ ih => exact he.inside_append ih

theorem IsLiteral.quoted {t : List Char} {s : String} (h : IsLiteral t s) : Quoted t := by
  obtain ⟨body, hbody, rfl⟩ := h
  exact ⟨body, hbody.inside, rfl⟩

/-! ## What follows a value -/

/-- The text does not go on with a number that ends before it. -/
def Delimited (s : List Char) : Prop :=
  ∀ c r, s = c :: r → c.isDigit = false ∧ c ≠ '.' ∧ c ≠ 'e' ∧ c ≠ 'E'

theorem Delimited.cons {c : Char} (h : c.isDigit = false ∧ c ≠ '.' ∧ c ≠ 'e' ∧ c ≠ 'E')
    (s : List Char) : Delimited (c :: s) := by
  intro d r hs
  obtain ⟨rfl, -⟩ := List.cons.inj hs
  exact h

theorem Blanks.delimited_append {w : List Char} (hw : Blanks w) {s : List Char}
    (hs : Delimited s) : Delimited (w ++ s) := by
  cases w with
  | nil => exact hs
  | cons c w =>
    refine .cons ?_ (w ++ s)
    rcases hw c List.mem_cons_self with rfl | rfl | rfl | rfl <;> decide

/-- The first item of a bracket and what follows it, in front of any text. -/
theorem first_append (w t u r : List Char) : w ++ (t ++ u) ++ r = w ++ (t ++ (u ++ r)) := by
  rw [List.append_assoc, List.append_assoc]

/-- A later item and what follows it, in front of any text. -/
theorem later_append (v w t u r : List Char) :
    v ++ ',' :: (w ++ (t ++ u)) ++ r = v ++ ',' :: (w ++ (t ++ (u ++ r))) := by
  rw [List.append_assoc, List.cons_append, first_append]

/-- Inside brackets a value is followed by a blank, a comma or the closing bracket. -/
theorem Rest.delimited_append {α : Type} {closing : Char} {G : List Char → α → Prop}
    {t : List Char} {as : List α} (h : Rest closing G t as)
    (hclosing : closing.isDigit = false ∧ closing ≠ '.' ∧ closing ≠ 'e' ∧ closing ≠ 'E')
    (r : List Char) : Delimited (t ++ r) := by
  cases h with
  | close hw =>
    rw [List.append_assoc]
    exact hw.delimited_append (.cons hclosing r)
  | next hv _ _ _ =>
    rw [List.append_assoc]
    exact hv.delimited_append (.cons (by decide) _)

end Json
end ChangeImpact
