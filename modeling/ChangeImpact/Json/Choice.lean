/-
Values that are one of a few known words.

A choice is written as the string of its word, or as an object with the word as
its only key and `null` as the value.
-/
import ChangeImpact.Json.Decoder

namespace ChangeImpact
namespace Json

structure Choice (α : Type) where
  words : List String
  ofWord? : String → Option α

def readUnit (s : List Char) : Except Failure (List Char) :=
  match skipBlank s with
  | [] => .error (.here .endInValue [])
  | c :: r => if c = 'n' then readWord "ull".toList r else .error (mismatch .unit (c :: r))

theorem length_of_readUnit {s r : List Char} (h : readUnit s = .ok r) : r.length < s.length := by
  have hb := length_skipBlank_le s
  unfold readUnit at h
  split at h
  · simp at h
  · next hs =>
    simp only [hs, List.length_cons] at hb
    split at h
    · have := length_of_readWord h; omega
    · simp at h

namespace Choice

variable {α : Type}

/-- Reads a word from behind its opening quote. -/
def readQuoted (ch : Choice α) (s : List Char) : Except Failure (α × List Char) :=
  match readLiteral [] s with
  | .error f => .error f
  | .ok (l, r) =>
    match ch.ofWord? (String.ofList l) with
    | some a => .ok (a, r)
    | none => .error (.here (.unknownVariant (String.ofList l) ch.words) r)

/-- Reads the quote before the only key of an object. -/
def readKeyQuote (s : List Char) : Except Failure (List Char) :=
  match skipBlank s with
  | [] => .error (.here .endInObject [])
  | c :: r =>
    if c = '"' then .ok r
    else if c = '\x7d' then .error (.next .expectedValue (c :: r))
    else .error (.next .keyMustBeString (c :: r))

/-- Reads the end of an object behind its only member. -/
def readClose (s : List Char) : Except Failure (List Char) :=
  match skipBlank s with
  | [] => .error (.here .endInObject [])
  | c :: r => if c = '\x7d' then .ok r else .error (.here .expectedValue (c :: r))

def readObject (ch : Choice α) (s : List Char) : Except Failure (α × List Char) := do
  let q ← readKeyQuote s
  let (a, r) ← ch.readQuoted q
  let t ← readColon r
  let u ← readUnit t
  let v ← readClose u
  return (a, v)

def read (ch : Choice α) (s : List Char) : Except Failure (α × List Char) :=
  match skipBlank s with
  | [] => .error (.here .endInValue [])
  | c :: r =>
    if c = '"' then ch.readQuoted r
    else if c = '\x7b' then ch.readObject r
    else .error (.next .expectedValue (c :: r))

theorem length_of_readQuoted {ch : Choice α} {s r : List Char} {a : α}
    (h : ch.readQuoted s = .ok (a, r)) : r.length < s.length := by
  unfold readQuoted at h
  split at h
  · simp at h
  · next hl =>
    split at h
    · simp only [Except.ok.injEq, Prod.mk.injEq] at h
      obtain ⟨-, rfl⟩ := h
      exact length_of_readLiteral hl
    · simp at h

theorem length_of_readKeyQuote {s r : List Char} (h : readKeyQuote s = .ok r) :
    r.length < s.length := by
  have hb := length_skipBlank_le s
  unfold readKeyQuote at h
  split at h
  · simp at h
  · next hs =>
    simp only [hs, List.length_cons] at hb
    split at h
    · simp only [Except.ok.injEq] at h
      subst h
      omega
    · split at h <;> simp at h

theorem length_of_readClose {s r : List Char} (h : readClose s = .ok r) :
    r.length < s.length := by
  have hb := length_skipBlank_le s
  unfold readClose at h
  split at h
  · simp at h
  · next hs =>
    simp only [hs, List.length_cons] at hb
    split at h
    · simp only [Except.ok.injEq] at h
      subst h
      omega
    · simp at h

theorem length_of_readObject {ch : Choice α} {s r : List Char} {a : α}
    (h : ch.readObject s = .ok (a, r)) : r.length < s.length := by
  unfold readObject at h
  cases hq : readKeyQuote s with
  | error => simp [hq, bind, Except.bind] at h
  | ok q =>
    simp only [hq, bind, Except.bind] at h
    split at h
    · simp at h
    · next p hw =>
      split at h
      · simp at h
      · next hc =>
        split at h
        · simp at h
        · next hu =>
          split at h
          · simp at h
          · next hv =>
            simp only [pure, Except.pure, Except.ok.injEq, Prod.mk.injEq] at h
            obtain ⟨-, rfl⟩ := h
            have := length_of_readKeyQuote hq
            have := length_of_readQuoted (a := p.1) (r := p.2) hw
            have := length_of_readColon hc
            have := length_of_readUnit hu
            have := length_of_readClose hv
            omega

theorem length_of_read {ch : Choice α} {s r : List Char} {a : α}
    (h : ch.read s = .ok (a, r)) : r.length < s.length := by
  have hb := length_skipBlank_le s
  unfold read at h
  split at h
  · simp at h
  · next hs =>
    simp only [hs, List.length_cons] at hb
    split at h
    · have := length_of_readQuoted h; omega
    split at h
    · have := length_of_readObject h; omega
    · simp at h

def decoder (ch : Choice α) : Decoder α where
  run := ch.read
  shorter := length_of_read

end Choice
end Json
end ChangeImpact
