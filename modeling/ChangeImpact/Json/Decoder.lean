/-
Decoders: reading a value of a known type from the beginning of a JSON text.

A decoder gives the value with the text behind it, or the first failure in
reading order.  It always uses up a character, which its field `shorter` records;
that is what lets `elements` read an array of any length, one element after the
other, in constant stack.  A value of another type is read far enough to say what
it is.
-/
import ChangeImpact.Json.Skim

namespace ChangeImpact
namespace Json

structure Decoder (α : Type) where
  run : List Char → Except Failure (α × List Char)
  shorter : ∀ {s a r}, run s = .ok (a, r) → r.length < s.length

/-! ## Values of another type -/

/-- What value a text begins with.  An array or an object is not read. -/
def found (s : List Char) : Except Failure (Found × List Char) :=
  match s with
  | [] => .error (.here .endInValue [])
  | c :: r =>
    if c = 'n' then (readWord "ull".toList r).map (.null, ·)
    else if c = 't' then (readWord "rue".toList r).map (.boolean true, ·)
    else if c = 'f' then (readWord "alse".toList r).map (.boolean false, ·)
    else if c = '-' then Number.read true r
    else if c.isDigit then Number.read false s
    else if c = '"' then (readLiteral [] r).map fun p => (.string (String.ofList p.1), p.2)
    else if c = '[' then .ok (.sequence, s)
    else if c = '\x7b' then .ok (.map, s)
    else .error (.next .expectedValue s)

/-- The failure of a text that begins with a value of another type. -/
def mismatch (expected : Expected) (s : List Char) : Failure :=
  match found s with
  | .ok (f, r) => .here (.invalidType f expected) r
  | .error f => f

/-! ## Strings -/

def readString (s : List Char) : Except Failure (String × List Char) :=
  match skipBlank s with
  | [] => .error (.here .endInValue [])
  | c :: r =>
    if c = '"' then
      match readLiteral [] r with
      | .error f => .error f
      | .ok (l, t) => .ok (String.ofList l, t)
    else .error (mismatch .string (c :: r))

theorem length_of_readString {s r : List Char} {a : String} (h : readString s = .ok (a, r)) :
    r.length < s.length := by
  have hb := length_skipBlank_le s
  unfold readString at h
  split at h
  · simp at h
  · next hs =>
    split at h
    · split at h
      · simp at h
      · next hl =>
        simp only [Except.ok.injEq, Prod.mk.injEq] at h
        obtain ⟨-, rfl⟩ := h
        have := length_of_readLiteral hl
        simp only [hs, List.length_cons] at hb; omega
    · simp at h

/-- Reads `null`, from behind its first letter or not at all. -/
def readNull? (s : List Char) : Option (Except Failure (List Char)) :=
  match skipBlank s with
  | 'n' :: r => some (readWord "ull".toList r)
  | _ => none

theorem length_of_readNull? {s r : List Char} (h : readNull? s = some (.ok r)) :
    r.length < s.length := by
  have hb := length_skipBlank_le s
  unfold readNull? at h
  split at h
  · next hs =>
    have := length_of_readWord (Option.some.inj h)
    simp only [hs, List.length_cons] at hb; omega
  · simp at h

namespace Decoder

variable {α β : Type}

def string : Decoder String where
  run := readString
  shorter := length_of_readString

/-- Changes the value that is read. -/
def map (f : α → β) (d : Decoder α) : Decoder β where
  run s :=
    match d.run s with
    | .error e => .error e
    | .ok (a, r) => .ok (f a, r)
  shorter {s b r} h := by
    split at h
    · simp at h
    · next hd =>
      simp only [Except.ok.injEq, Prod.mk.injEq] at h
      obtain ⟨-, rfl⟩ := h
      exact d.shorter hd

def orNull (d : Decoder α) : Decoder (Option α) where
  run s :=
    match readNull? s with
    | some (.ok r) => .ok (none, r)
    | some (.error f) => .error f
    | none => (d.map some).run s
  shorter {s a r} h := by
    split at h
    · next hn =>
      simp only [Except.ok.injEq, Prod.mk.injEq] at h
      obtain ⟨-, rfl⟩ := h
      exact length_of_readNull? hn
    · simp at h
    · exact (d.map some).shorter h

end Decoder

/-! ## Arrays -/

/-- What comes next between brackets: their end, with the text behind it, or an item
that begins here. -/
inductive Next where
  | close (rest : List Char)
  | item (rest : List Char)
deriving DecidableEq, Repr

def nextElement (first : Bool) (s : List Char) : Except Failure Next :=
  match skipBlank s with
  | [] => .error (.here .endInList [])
  | c :: r =>
    if c = ']' then .ok (.close r)
    else if first then .ok (.item (c :: r))
    else if c = ',' then
      match skipBlank r with
      | [] => .error (.here .endInValue [])
      | d :: t => if d = ']' then .error (.next .trailingComma (d :: t)) else .ok (.item (d :: t))
    else .error (.next .expectedListCommaOrEnd (c :: r))

theorem length_of_nextElement_item {first : Bool} {s r : List Char}
    (h : nextElement first s = .ok (.item r)) : r.length ≤ s.length := by
  have hb := length_skipBlank_le s
  unfold nextElement at h
  split at h
  · simp at h
  · next c t hs =>
    simp only [hs, List.length_cons] at hb
    have ht := length_skipBlank_le t
    split at h
    · simp at h
    split at h
    · simp only [Except.ok.injEq, Next.item.injEq] at h
      subst h
      simpa using hb
    split at h
    · split at h
      · simp at h
      · next hd =>
        split at h
        · simp at h
        · simp only [Except.ok.injEq, Next.item.injEq] at h
          subst h
          simp only [hd] at ht; omega
    · simp at h

theorem length_of_nextElement_close {first : Bool} {s r : List Char}
    (h : nextElement first s = .ok (.close r)) : r.length < s.length := by
  have hb := length_skipBlank_le s
  unfold nextElement at h
  split at h
  · simp at h
  · next hs =>
    simp only [hs, List.length_cons] at hb
    split at h
    · simp only [Except.ok.injEq, Next.close.injEq] at h
      subst h
      omega
    split at h
    · simp at h
    split at h
    · split at h
      · simp at h
      · split at h <;> simp at h
    · simp at h

/-- Reads the elements of an array from behind its bracket.  Those read so far stand in
`acc`, the last one first. -/
def elements {α : Type} (item : Decoder α) (first : Bool) (acc : List α) (s : List Char) :
    Except Failure (List α × List Char) :=
  match hn : nextElement first s with
  | .error f => .error f
  | .ok (.close r) => .ok (acc.reverse, r)
  | .ok (.item t) =>
    match hi : item.run t with
    | .error f => .error f
    | .ok (a, r) =>
      have := Nat.lt_of_lt_of_le (item.shorter hi) (length_of_nextElement_item hn)
      elements item false (a :: acc) r
termination_by s.length

theorem length_of_elements {α : Type} {item : Decoder α} {first : Bool} {acc l : List α}
    {s r : List Char} (h : elements item first acc s = .ok (l, r)) : r.length < s.length := by
  fun_induction elements item first acc s with
  | case1 => simp at h
  | case2 first acc s t hn =>
    simp only [Except.ok.injEq, Prod.mk.injEq] at h
    obtain ⟨-, rfl⟩ := h
    exact length_of_nextElement_close hn
  | case3 => simp at h
  | case4 first acc s t hn a u hi hlt ih =>
    have := ih h
    omega

def readList {α : Type} (item : Decoder α) (s : List Char) :
    Except Failure (List α × List Char) :=
  match skipBlank s with
  | [] => .error (.here .endInValue [])
  | c :: r =>
    if c = '[' then elements item true [] r else .error (mismatch .sequence (c :: r))

theorem length_of_readList {α : Type} {item : Decoder α} {s r : List Char} {l : List α}
    (h : readList item s = .ok (l, r)) : r.length < s.length := by
  have hb := length_skipBlank_le s
  unfold readList at h
  split at h
  · simp at h
  · next hs =>
    simp only [hs, List.length_cons] at hb
    split at h
    · have := length_of_elements h; omega
    · simp at h

def Decoder.list {α : Type} (item : Decoder α) : Decoder (List α) where
  run := readList item
  shorter := length_of_readList

/-! ## Whole texts -/

/-- The value of a text that holds nothing behind it but blanks. -/
def Decoder.decode {α : Type} (d : Decoder α) (text : String) : Except Refusal α :=
  let s := text.toList
  let refuse (f : Failure) : Refusal := ⟨f.cause, f.position s⟩
  match d.run s with
  | .error f => .error (refuse f)
  | .ok (a, r) =>
    match skipBlank r with
    | [] => .ok a
    | t => .error (refuse (.next .trailingCharacters t))

end Json
end ChangeImpact
