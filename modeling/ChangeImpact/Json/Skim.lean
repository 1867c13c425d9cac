/-
Passing over a value that is not needed.

Numbers may have any size, surrogates need not come in pairs and brackets may be
nested to any depth: the open brackets are kept in a list, so the depth costs no
stack.  What remains of the grammar is checked in full.
-/
import ChangeImpact.Json.Number
import ChangeImpact.Json.Scan

namespace ChangeImpact
namespace Json

/-! ## Single values -/

/-- Passes over an exponent from behind its letter. -/
def passExponent (s : List Char) : Except Failure (List Char) :=
  let (_, r) := Number.exponentSign s
  if Number.startsWithDigit r then .ok (Number.skipDigits r) else .error (.next .invalidNumber r)

def passExponent? (s : List Char) : Except Failure (List Char) :=
  match s with
  | [] => .ok []
  | c :: r => if c = 'e' || c = 'E' then passExponent r else .ok s

/-- Passes over what may follow the digits of an integer. -/
def passFraction? (s : List Char) : Except Failure (List Char) :=
  match s with
  | [] => .ok []
  | c :: r =>
    if c = '.' then
      if Number.startsWithDigit r then passExponent? (Number.skipDigits r)
      else .error (.next .invalidNumber r)
    else passExponent? s

def passNumber (s : List Char) : Except Failure (List Char) :=
  match s with
  | [] => .error (.next .invalidNumber [])
  | c :: r =>
    if c = '0' then
      if Number.startsWithDigit r then .error (.next .invalidNumber r) else passFraction? r
    else if c.isDigit then passFraction? (Number.skipDigits r)
    else .error (.next .invalidNumber s)

def passScalar (s : List Char) : Except Failure (List Char) :=
  match s with
  | [] => .error (.here .endInValue [])
  | c :: r =>
    if c = 'n' then readWord "ull".toList r
    else if c = 't' then readWord "rue".toList r
    else if c = 'f' then readWord "alse".toList r
    else if c = '"' then passLiteral r
    else if c = '-' then passNumber r
    else if c.isDigit then passNumber s
    else .error (.next .expectedValue s)

theorem length_skipDigits_le (s : List Char) : (Number.skipDigits s).length ≤ s.length :=
  (List.dropWhile_sublist _).length_le

theorem length_exponentSign_le (s : List Char) :
    (Number.exponentSign s).2.length ≤ s.length := by
  unfold Number.exponentSign
  split <;> simp

theorem length_of_passExponent {s r : List Char} (h : passExponent s = .ok r) :
    r.length ≤ s.length := by
  have hs := length_exponentSign_le s
  have hd := length_skipDigits_le (Number.exponentSign s).2
  unfold passExponent at h
  dsimp only at h
  split at h
  · simp only [Except.ok.injEq] at h
    subst h
    omega
  · simp at h

theorem length_of_passExponent? {s r : List Char} (h : passExponent? s = .ok r) :
    r.length ≤ s.length := by
  unfold passExponent? at h
  split at h
  · simp_all
  · split at h
    · have := length_of_passExponent h
      simp only [List.length_cons]; omega
    · simp_all

theorem length_of_passFraction? {s r : List Char} (h : passFraction? s = .ok r) :
    r.length ≤ s.length := by
  unfold passFraction? at h
  split at h
  · simp_all
  · next c t =>
    have hd := length_skipDigits_le t
    split at h
    · split at h
      · have := length_of_passExponent? h
        simp only [List.length_cons]; omega
      · simp at h
    · exact length_of_passExponent? h

theorem length_of_passNumber {s r : List Char} (h : passNumber s = .ok r) :
    r.length < s.length := by
  unfold passNumber at h
  split at h
  · simp at h
  · next c t =>
    have hd := length_skipDigits_le t
    split at h
    · split at h
      · simp at h
      · have := length_of_passFraction? h
        simp only [List.length_cons]; omega
    split at h
    · have := length_of_passFraction? h
      simp only [List.length_cons]; omega
    · simp at h

theorem length_of_readWord {w s r : List Char} (h : readWord w s = .ok r) :
    r.length ≤ s.length := by
  simp [eq_append_of_readWord h]

theorem length_of_passScalar {s r : List Char} (h : passScalar s = .ok r) :
    r.length < s.length := by
  unfold passScalar at h
  split at h
  · simp at h
  · next c t =>
    simp only [List.length_cons]
    split at h
    · have := length_of_readWord h; omega
    split at h
    · have := length_of_readWord h; omega
    split at h
    · have := length_of_readWord h; omega
    split at h
    · have := length_of_passLiteral h; omega
    split at h
    · have := length_of_passNumber h; omega
    split at h
    · simpa using length_of_passNumber h
    · simp at h

/-! ## Nested values -/

inductive Bracket where
  | array
  | object
deriving DecidableEq, Repr

namespace Bracket

def closing : Bracket → Char
  | array => ']'
  | object => '\x7d'

/-- The text ended inside the bracket. -/
def atEnd : Bracket → Cause
  | array => .endInList
  | object => .endInObject

/-- A value inside the bracket is followed by something else than a comma or the end. -/
def afterItem : Bracket → Cause
  | array => .expectedListCommaOrEnd
  | object => .expectedObjectCommaOrEnd

end Bracket

def readColon (s : List Char) : Except Failure (List Char) :=
  match skipBlank s with
  | [] => .error (.here .endInObject [])
  | c :: r => if c = ':' then .ok r else .error (.next .expectedColon (c :: r))

theorem length_of_readColon {s r : List Char} (h : readColon s = .ok r) :
    r.length < s.length := by
  have hb := length_skipBlank_le s
  unfold readColon at h
  split at h
  · simp at h
  · next hs =>
    split at h
    · simp only [Except.ok.injEq] at h
      subst h
      simp only [hs, List.length_cons] at hb; omega
    · simp at h

def passKey (s : List Char) : Except Failure (List Char) :=
  match skipBlank s with
  | [] => .error (.here .endInObject [])
  | c :: r =>
    if c = '"' then
      match passLiteral r with
      | .error f => .error f
      | .ok t => readColon t
    else .error (.next .keyMustBeString (c :: r))

theorem length_of_passKey {s r : List Char} (h : passKey s = .ok r) : r.length < s.length := by
  have hb := length_skipBlank_le s
  unfold passKey at h
  split at h
  · simp at h
  · next hs =>
    split at h
    · split at h
      · simp at h
      · next hl =>
        have := length_of_passLiteral hl
        have := length_of_readColon h
        simp only [hs, List.length_cons] at hb; omega
    · simp at h

/-- Passes over what stands before the next value inside a bracket: nothing in an
array, a key in an object. -/
def passToValue (b : Bracket) (s : List Char) : Except Failure (List Char) :=
  match b with
  | .array => .ok s
  | .object => passKey s

theorem length_of_passToValue {b : Bracket} {s r : List Char} (h : passToValue b s = .ok r) :
    r.length ≤ s.length := by
  cases b with
  | array =>
    simp only [passToValue, Except.ok.injEq] at h
    subst h
    exact Nat.le_refl _
  | object => exact Nat.le_of_lt (length_of_passKey h)

/-- The text behind the comma that comes first, if there must be one. -/
def pastComma (afterItem : Bool) (s : List Char) : List Char :=
  match afterItem with
  | true => s.tail
  | false => s

theorem length_pastComma_le (afterItem : Bool) (s : List Char) :
    (pastComma afterItem s).length ≤ s.length := by
  cases afterItem <;> simp [pastComma]

/-- What comes next inside the open brackets. -/
inductive Spot where
  | value
  /-- A further value or the end of the innermost bracket. -/
  | inside (afterItem : Bool)
deriving DecidableEq, Repr

/-- Values are looked for after the brackets around them. -/
def Spot.rank : Spot → Nat
  | value => 0
  | inside _ => 1

/-- Passes over what is needed to close all the open brackets, and over a value
first if that is what comes next. -/
def skim (spot : Spot) (opened : List Bracket) (s : List Char) : Except Failure (List Char) :=
  match spot with
  | .value =>
    match hs : skipBlank s with
    | [] => .error (.here .endInValue [])
    | c :: r =>
      have := hs ▸ length_skipBlank_le s
      if c = '[' then skim (.inside false) (.array :: opened) r
      else if c = '\x7b' then skim (.inside false) (.object :: opened) r
      else
        match h : passScalar (c :: r) with
        | .error f => .error f
        | .ok t =>
          have := length_of_passScalar h
          skim (.inside true) opened t
  | .inside afterItem =>
    match opened with
    | [] => .ok s
    | b :: outer =>
      match hs : skipBlank s with
      | [] => .error (.here b.atEnd [])
      | c :: r =>
        have := hs ▸ length_skipBlank_le s
        if c = b.closing then skim (.inside true) outer r
        else if afterItem && c != ',' then .error (.next b.afterItem (c :: r))
        else
          match h : passToValue b (pastComma afterItem (c :: r)) with
          | .error f => .error f
          | .ok t =>
            have := Nat.le_trans (length_of_passToValue h) (length_pastComma_le _ _)
            skim .value (b :: outer) t
termination_by (s.length, spot.rank)
decreasing_by
  all_goals simp only [List.length_cons] at *
  · apply Prod.Lex.left; omega
  · apply Prod.Lex.left; omega
  · apply Prod.Lex.left; omega
  · apply Prod.Lex.left; omega
  · have : t.length ≤ s.length := by omega
    rcases Nat.lt_or_eq_of_le this with hlt | heq
    · exact Prod.Lex.left _ _ hlt
    · rw [heq]; exact Prod.Lex.right _ (by simp [Spot.rank])

theorem length_of_skim {spot : Spot} {opened : List Bracket} {s r : List Char}
    (h : skim spot opened s = .ok r) :
    r.length ≤ s.length ∧ (spot = .value → r.length < s.length) := by
  fun_induction skim spot opened s with
  | case1 => simp at h
  | case2 opened s t _ hlt ih =>
    have := (ih h).1
    simp only [List.length_cons] at hlt
    exact ⟨by omega, fun _ => by omega⟩
  | case3 opened s t _ hlt _ ih =>
    have := (ih h).1
    simp only [List.length_cons] at hlt
    exact ⟨by omega, fun _ => by omega⟩
  | case4 => simp at h
  | case5 opened s c t _ hle _ _ u _ hlt ih =>
    have := (ih h).1
    exact ⟨by omega, fun _ => by omega⟩
  | case6 => simp_all
  | case7 => simp at h
  | case8 s _ b outer t _ hle ih =>
    have := (ih h).1
    simp only [List.length_cons] at hle
    exact ⟨by omega, by simp⟩
  | case9 => simp at h
  | case10 => simp at h
  | case11 s _ b outer c t _ hle _ _ u _ hlt ih =>
    have := (ih h).1
    exact ⟨by omega, by simp⟩

def passValue (s : List Char) : Except Failure (List Char) :=
  skim .value [] s

theorem length_of_passValue {s r : List Char} (h : passValue s = .ok r) : r.length < s.length :=
  (length_of_skim h).2 rfl

end Json
end ChangeImpact
