/-
The smallest parts of a JSON text: blanks, words and string literals.

A literal is read by `readLiteral`, which decodes it, or passed over by
`passLiteral`, which looks no further than it must to find the end: digits after
`\u` are checked, but not whether surrogates come in pairs.  Both work on the text
after the opening quote, in constant stack.
-/
import ChangeImpact.Json.Failure
import ChangeImpact.Json.Literal
import ChangeImpact.Text.Hex

namespace ChangeImpact
namespace Json

/-- The four blanks of JSON. -/
def isBlank (c : Char) : Bool :=
  c = ' ' || c = '\t' || c = '\n' || c = '\r'

/-- The text after its leading blanks. -/
def skipBlank (s : List Char) : List Char :=
  s.dropWhile isBlank

theorem length_skipBlank_le (s : List Char) : (skipBlank s).length ≤ s.length :=
  (List.dropWhile_sublist _).length_le

theorem skipBlank_of_not_blank {c : Char} (h : isBlank c = false) (s : List Char) :
    skipBlank (c :: s) = c :: s := by
  simp [skipBlank, h]

theorem skipBlank_append {w : List Char} (h : ∀ c ∈ w, isBlank c = true) (s : List Char) :
    skipBlank (w ++ s) = skipBlank s := by
  induction w with
  | nil => rfl
  | cons c w ih =>
    simp only [List.mem_cons, forall_eq_or_imp] at h
    rw [← ih h.2]
    simp [skipBlank, h.1]

/-- What follows the word `w`, which must come next. -/
def readWord : List Char → List Char → Except Failure (List Char)
  | [], s => .ok s
  | _ :: _, [] => .error (.here .endInValue [])
  | w :: ws, c :: r => if w = c then readWord ws r else .error (.next .expectedIdent (c :: r))

theorem readWord_append (w s : List Char) : readWord w (w ++ s) = .ok s := by
  induction w with
  | nil => simp [readWord]
  | cons c w ih => simpa [readWord] using ih

theorem eq_append_of_readWord {w s r : List Char} (h : readWord w s = .ok r) : s = w ++ r := by
  induction w generalizing s with
  | nil => simpa [readWord] using h
  | cons a w ih =>
    cases s with
    | nil => simp [readWord] at h
    | cons c s =>
      rw [readWord] at h
      split at h
      · next hc => subst hc; simp [ih h]
      · simp at h

/-! ## Escapes -/

def hexValues? (a b c d : Char) : Option Nat := do
  return (((← Text.hexValue? a) * 16 + (← Text.hexValue? b)) * 16 + (← Text.hexValue? c)) * 16 + (← Text.hexValue? d)

/-- Reads four hexadecimal digits.  Four bytes are taken whatever they hold. -/
def readHex (s : List Char) : Except Failure (Nat × List Char) :=
  match s with
  | a :: b :: c :: d :: r =>
    match hexValues? a b c d with
    | some n => .ok (n, r)
    | none => .error ⟨.invalidEscape, s, 4⟩
  | _ => if byteSize s < 4 then .error (.here .endInString []) else .error ⟨.invalidEscape, s, 4⟩

/-- The first half of a surrogate pair. -/
def isHighSurrogate (n : Nat) : Bool :=
  0xd800 ≤ n && n ≤ 0xdbff

/-- The second half of a surrogate pair. -/
def isLowSurrogate (n : Nat) : Bool :=
  0xdc00 ≤ n && n ≤ 0xdfff

/-- The character of a surrogate pair. -/
def pairChar (high low : Nat) : Char :=
  Char.ofNat (0x10000 + (high - 0xd800) * 0x400 + (low - 0xdc00))

/-- Reads the second half of the pair that `high` begins. -/
def readLow (high : Nat) (s : List Char) : Except Failure (Char × List Char) :=
  match s with
  | [] => .error (.here .endInString [])
  | c :: r =>
    if c ≠ '\\' then .error (.next .endOfHexEscape s)
    else
      match r with
      | [] => .error (.here .endInString [])
      | d :: t =>
        if d ≠ 'u' then .error (.next .endOfHexEscape r)
        else
          match readHex t with
          | .error f => .error f
          | .ok (low, u) =>
            if isLowSurrogate low then .ok (pairChar high low, u)
            else .error (.here .loneSurrogate u)

/-- Reads the character that is given by its number, after `\u`. -/
def readUnicode (s : List Char) : Except Failure (Char × List Char) :=
  match readHex s with
  | .error f => .error f
  | .ok (n, r) =>
    if isLowSurrogate n then .error (.here .loneSurrogate r)
    else if isHighSurrogate n then readLow n r
    else .ok (Char.ofNat n, r)

/-- The character that a letter stands for after a backslash. -/
def shortEscape? : Char → Option Char
  | '"' => some '"'
  | '\\' => some '\\'
  | '/' => some '/'
  | 'b' => some '\x08'
  | 'f' => some '\x0c'
  | 'n' => some '\n'
  | 'r' => some '\r'
  | 't' => some '\t'
  | _ => none

def readEscape (s : List Char) : Except Failure (Char × List Char) :=
  match s with
  | [] => .error (.here .endInString [])
  | c :: r =>
    if c = 'u' then readUnicode r
    else
      match shortEscape? c with
      | some d => .ok (d, r)
      | none => .error (.next .invalidEscape s)

def passEscape (s : List Char) : Except Failure (List Char) :=
  match s with
  | [] => .error (.here .endInString [])
  | c :: r =>
    if c = 'u' then
      match readHex r with
      | .error f => .error f
      | .ok (_, t) => .ok t
    else if (shortEscape? c).isSome then .ok r
    else .error (.next .invalidEscape s)

theorem length_of_readHex {s r : List Char} {n : Nat} (h : readHex s = .ok (n, r)) :
    r.length < s.length := by
  unfold readHex at h
  split at h
  · split at h
    · simp only [Except.ok.injEq, Prod.mk.injEq] at h
      obtain ⟨-, rfl⟩ := h
      simp only [List.length_cons]; omega
    · simp at h
  · split at h <;> simp at h

theorem length_of_readLow {high : Nat} {s r : List Char} {c : Char}
    (h : readLow high s = .ok (c, r)) : r.length < s.length := by
  unfold readLow at h
  repeat' split at h
  all_goals try simp at h
  next hx _ =>
    obtain ⟨-, rfl⟩ := h
    have := length_of_readHex hx
    simp only [List.length_cons]; omega

theorem length_of_readUnicode {s r : List Char} {c : Char} (h : readUnicode s = .ok (c, r)) :
    r.length < s.length := by
  unfold readUnicode at h
  split at h
  · simp at h
  · next hx =>
    have := length_of_readHex hx
    split at h
    · simp at h
    split at h
    · have := length_of_readLow h; omega
    · simp only [Except.ok.injEq, Prod.mk.injEq] at h
      obtain ⟨-, rfl⟩ := h
      exact this

theorem length_of_readEscape {s r : List Char} {c : Char} (h : readEscape s = .ok (c, r)) :
    r.length < s.length := by
  unfold readEscape at h
  split at h
  · simp at h
  · split at h
    · have := length_of_readUnicode h
      simp only [List.length_cons]; omega
    · split at h
      · simp only [Except.ok.injEq, Prod.mk.injEq] at h
        obtain ⟨-, rfl⟩ := h
        simp
      · simp at h

theorem length_of_passEscape {s r : List Char} (h : passEscape s = .ok r) :
    r.length < s.length := by
  unfold passEscape at h
  split at h
  · simp at h
  · split at h
    · split at h
      · simp at h
      · next hx =>
        simp only [Except.ok.injEq] at h
        subst h
        have := length_of_readHex hx
        simp only [List.length_cons]; omega
    · split at h
      · simp only [Except.ok.injEq] at h
        subst h
        simp
      · simp at h

/-! ## Literals -/

/-- Reads a literal from behind its opening quote to behind its closing one.  The
characters read so far stand in `acc`, the last one first. -/
def readLiteral (acc : List Char) (s : List Char) : Except Failure (List Char × List Char) :=
  match s with
  | [] => .error (.here .endInString [])
  | c :: r =>
    if c = '"' then .ok (acc.reverse, r)
    else if c = '\\' then
      match h : readEscape r with
      | .error f => .error f
      | .ok (d, t) =>
        have := length_of_readEscape h
        readLiteral (d :: acc) t
    else if isControl c then .error (.here .controlCharacter r)
    else readLiteral (c :: acc) r
termination_by s.length

/-- Passes over a literal from behind its opening quote to behind its closing one. -/
def passLiteral (s : List Char) : Except Failure (List Char) :=
  match s with
  | [] => .error (.here .endInString [])
  | c :: r =>
    if c = '"' then .ok r
    else if c = '\\' then
      match h : passEscape r with
      | .error f => .error f
      | .ok t =>
        have := length_of_passEscape h
        passLiteral t
    else if isControl c then .error (.here .controlCharacter s)
    else passLiteral r
termination_by s.length

theorem length_of_readLiteral {acc s l r : List Char} (h : readLiteral acc s = .ok (l, r)) :
    r.length < s.length := by
  fun_induction readLiteral acc s with
  | case1 => simp at h
  | case2 acc t =>
    simp only [Except.ok.injEq, Prod.mk.injEq] at h
    obtain ⟨-, rfl⟩ := h
    simp
  | case3 => simp at h
  | case4 acc t d u _ _ hlt ih =>
    have := ih h
    simp only [List.length_cons]; omega
  | case5 => simp at h
  | case6 acc c t _ _ _ ih =>
    have := ih h
    simp only [List.length_cons]; omega

theorem length_of_passLiteral {s r : List Char} (h : passLiteral s = .ok r) :
    r.length < s.length := by
  fun_induction passLiteral s with
  | case1 => simp at h
  | case2 t =>
    simp only [Except.ok.injEq] at h
    subst h
    simp
  | case3 => simp at h
  | case4 t u _ _ hlt ih =>
    have := ih h
    simp only [List.length_cons]; omega
  | case5 => simp at h
  | case6 c t _ _ _ ih =>
    have := ih h
    simp only [List.length_cons]; omega

end Json
end ChangeImpact
