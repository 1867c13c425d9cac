/-
Records: values with named fields.

A record is written as an object, in which keys that are no field are ignored, or
as an array of its fields in their order, of which fields with a default may be
absent at the end.  While it is read, the fields that have been seen stand in a
draft.  A field that occurs twice or is missing, and an array that is too short,
are reported only after the closing bracket has been looked for.
-/
import ChangeImpact.Json.Decoder

namespace ChangeImpact
namespace Json

/-- A field of a record whose drafts have type `δ`. -/
structure Field (δ : Type) where
  name : String
  /-- Reads the value and stores it in a draft. -/
  value : Decoder (δ → δ)
  isSet : δ → Bool

/-- A type of records. -/
structure Shape (δ α : Type) where
  title : String
  fields : List (Field δ)
  blank : δ
  /-- The record, or the name of the first field that is missing. -/
  finish : δ → Except String α

/-- What comes next in an object; an item begins behind the opening quote of a key. -/
def nextMember (first : Bool) (s : List Char) : Except Failure Next :=
  match skipBlank s with
  | [] => .error (.here .endInObject [])
  | c :: r =>
    if c = '\x7d' then .ok (.close r)
    else if first then
      if c = '"' then .ok (.item r) else .error (.next .keyMustBeString (c :: r))
    else if c = ',' then
      match skipBlank r with
      | [] => .error (.here .endInValue [])
      | d :: t =>
        if d = '"' then .ok (.item t)
        else if d = '\x7d' then .error (.next .trailingComma (d :: t))
        else .error (.next .keyMustBeString (d :: t))
    else .error (.next .expectedObjectCommaOrEnd (c :: r))

theorem length_of_nextMember_item {first : Bool} {s r : List Char}
    (h : nextMember first s = .ok (.item r)) : r.length < s.length := by
  have hb := length_skipBlank_le s
  unfold nextMember at h
  split at h
  · simp at h
  · next c t hs =>
    simp only [hs, List.length_cons] at hb
    have ht := length_skipBlank_le t
    split at h
    · simp at h
    split at h
    · split at h
      · simp only [Except.ok.injEq, Next.item.injEq] at h
        subst h
        omega
      · simp at h
    split at h
    · split at h
      · simp at h
      · next hd =>
        simp only [hd, List.length_cons] at ht
        split at h
        · simp only [Except.ok.injEq, Next.item.injEq] at h
          subst h
          omega
        · split at h <;> simp at h
    · simp at h

theorem length_of_nextMember_close {first : Bool} {s r : List Char}
    (h : nextMember first s = .ok (.close r)) : r.length < s.length := by
  have hb := length_skipBlank_le s
  unfold nextMember at h
  split at h
  · simp at h
  · next hs =>
    simp only [hs, List.length_cons] at hb
    split at h
    · simp only [Except.ok.injEq, Next.close.injEq] at h
      subst h
      omega
    split at h
    · split at h <;> simp at h
    split at h
    · split at h
      · simp at h
      · split at h
        · simp at h
        · split at h <;> simp at h
    · simp at h

/-- The text behind the end of an array. -/
def closeArray (s : List Char) : Except Failure (List Char) :=
  match skipBlank s with
  | [] => .error (.here .endInList [])
  | c :: r =>
    if c = ']' then .ok r
    else if c = ',' then
      match skipBlank r with
      | ']' :: t => .error (.next .trailingComma (']' :: t))
      | t => .error (.next .trailingCharacters t)
    else .error (.next .trailingCharacters (c :: r))

theorem length_of_closeArray {s r : List Char} (h : closeArray s = .ok r) :
    r.length < s.length := by
  have hb := length_skipBlank_le s
  unfold closeArray at h
  split at h
  · simp at h
  · next hs =>
    simp only [hs, List.length_cons] at hb
    split at h
    · simp only [Except.ok.injEq] at h
      subst h
      omega
    split at h
    · split at h <;> simp at h
    · simp at h

/-- The text behind blanks and the end of an object, if it comes next. -/
def pastObject (s : List Char) : List Char :=
  match skipBlank s with
  | '\x7d' :: r => r
  | t => t

namespace Shape

variable {δ α : Type}

def field? (sh : Shape δ α) (key : String) : Option (Field δ) :=
  sh.fields.find? fun f => f.name == key

def index (sh : Shape δ α) (key : String) : Nat :=
  sh.fields.findIdx fun f => f.name == key

/-- Reads what follows a key into the draft. -/
def readMember (sh : Shape δ α) (key : String) (d : δ) (s : List Char) :
    Except Failure (δ × List Char) :=
  match sh.field? key with
  | none =>
    match readColon s with
    | .error e => .error e
    | .ok t =>
      match passValue t with
      | .error e => .error e
      | .ok r => .ok (d, r)
  | some f =>
    if f.isSet d then .error (.here (.duplicateField key) (pastObject s))
    else
      match readColon s with
      | .error e => .error e
      | .ok t =>
        match f.value.run t with
        | .error e => .error e
        | .ok (g, r) => .ok (g d, r)

theorem length_of_readMember {sh : Shape δ α} {key : String} {d d' : δ} {s r : List Char}
    (h : sh.readMember key d s = .ok (d', r)) : r.length < s.length := by
  unfold readMember at h
  split at h
  · split at h
    · simp at h
    · next hc =>
      have := length_of_readColon hc
      split at h
      · simp at h
      · next hv =>
        have := length_of_passValue hv
        simp only [Except.ok.injEq, Prod.mk.injEq] at h
        obtain ⟨-, rfl⟩ := h
        omega
  · next f _ =>
    split at h
    · simp at h
    split at h
    · simp at h
    · next hc =>
      have := length_of_readColon hc
      split at h
      · simp at h
      · next hv =>
        have := f.value.shorter hv
        simp only [Except.ok.injEq, Prod.mk.injEq] at h
        obtain ⟨-, rfl⟩ := h
        omega

/-- Reads the members of an object from behind its bracket. -/
def members (sh : Shape δ α) (first : Bool) (d : δ) (s : List Char) :
    Except Failure (α × List Char) :=
  match hn : nextMember first s with
  | .error e => .error e
  | .ok (.close r) =>
    match sh.finish d with
    | .ok a => .ok (a, r)
    | .error name => .error (.here (.missingField name) r)
  | .ok (.item t) =>
    match hk : readLiteral [] t with
    | .error e => .error e
    | .ok (key, u) =>
      match hm : sh.readMember (String.ofList key) d u with
      | .error e => .error e
      | .ok (d', r) =>
        have : r.length < s.length :=
          Nat.lt_trans (length_of_readMember hm)
            (Nat.lt_trans (length_of_readLiteral hk) (length_of_nextMember_item hn))
        sh.members false d' r
termination_by s.length

theorem length_of_members {sh : Shape δ α} {first : Bool} {d : δ} {s r : List Char} {a : α}
    (h : sh.members first d s = .ok (a, r)) : r.length < s.length := by
  fun_induction members sh first d s with
  | case1 => simp at h
  | case2 first d s t hn b hf =>
    simp only [Except.ok.injEq, Prod.mk.injEq] at h
    obtain ⟨-, rfl⟩ := h
    exact length_of_nextMember_close hn
  | case3 => simp at h
  | case4 => simp at h
  | case5 => simp at h
  | case6 first d s t hn key u hk d' v hm hlt ih =>
    have := ih h
    omega

/-- Reads the fields of an array from behind its bracket. -/
def slots (sh : Shape δ α) (first : Bool) (d : δ) :
    List (Field δ) → List Char → Except Failure (α × List Char)
  | [], s =>
    match closeArray s with
    | .error e => .error e
    | .ok r =>
      match sh.finish d with
      | .ok a => .ok (a, r)
      | .error name => .error (.here (.missingField name) r)
  | f :: fs, s =>
    match nextElement first s with
    | .error e => .error e
    | .ok (.close r) =>
      match sh.finish d with
      | .ok a => .ok (a, r)
      | .error name =>
        .error (.here (.invalidLength (sh.index name) sh.title sh.fields.length) r)
    | .ok (.item t) =>
      match f.value.run t with
      | .error e => .error e
      | .ok (g, r) => sh.slots false (g d) fs r

theorem length_of_slots {sh : Shape δ α} {first : Bool} {d : δ} {fs : List (Field δ)}
    {s r : List Char} {a : α} (h : sh.slots first d fs s = .ok (a, r)) : r.length < s.length := by
  induction fs generalizing first d s with
  | nil =>
    unfold slots at h
    split at h
    · simp at h
    · next hc =>
      split at h
      · simp only [Except.ok.injEq, Prod.mk.injEq] at h
        obtain ⟨-, rfl⟩ := h
        exact length_of_closeArray hc
      · simp at h
  | cons f fs ih =>
    unfold slots at h
    split at h
    · simp at h
    · next hn =>
      split at h
      · simp only [Except.ok.injEq, Prod.mk.injEq] at h
        obtain ⟨-, rfl⟩ := h
        exact length_of_nextElement_close hn
      · simp at h
    · next hn =>
      split at h
      · simp at h
      · next hv =>
        have := f.value.shorter hv
        have := length_of_nextElement_item hn
        have := ih h
        omega

def read (sh : Shape δ α) (s : List Char) : Except Failure (α × List Char) :=
  match skipBlank s with
  | [] => .error (.here .endInValue [])
  | c :: r =>
    if c = '\x7b' then sh.members true sh.blank r
    else if c = '[' then sh.slots true sh.blank sh.fields r
    else .error (mismatch (.record sh.title) (c :: r))

theorem length_of_read {sh : Shape δ α} {s r : List Char} {a : α}
    (h : sh.read s = .ok (a, r)) : r.length < s.length := by
  have hb := length_skipBlank_le s
  unfold read at h
  split at h
  · simp at h
  · next hs =>
    simp only [hs, List.length_cons] at hb
    split at h
    · have := length_of_members h; omega
    split at h
    · have := length_of_slots h; omega
    · simp at h

def decoder (sh : Shape δ α) : Decoder α where
  run := sh.read
  shorter := length_of_read

end Shape
end Json
end ChangeImpact
