/-
Reading TOML documents.

A document is read line by line into statements, which are headers and
assignments; then the statements are carried out one after the other on the
table of the whole document.  Arrays and inline tables may be nested to a fixed
depth, so a value is read by recursion on the depth that is left.
-/
import ChangeImpact.Toml.Scalar
import ChangeImpact.Toml.Scan

namespace ChangeImpact
namespace Toml

/-- The greatest number of arrays and inline tables around a value. -/
def maxDepth : Nat := 80

/-- The greatest number of keys that points may join. -/
def maxPath : Nat := 80

structure Reader (α : Type) where
  run : List Char → Option (α × List Char)
  shorter : ∀ {s a r}, run s = some (a, r) → r.length < s.length

/-! ## Arrays -/

/-- Reads the items of an array from behind its bracket or behind a comma.  Those read so
far stand in `acc`, the last one first. -/
def readItems {α : Type} (item : Reader α) (acc : List α) (s : List Char) :
    Option (List α × List Char) :=
  match hs : skipGap s with
  | [] => none
  | c :: r =>
    if c = ']' then some (acc.reverse, r)
    else
      match hi : item.run (c :: r) with
      | none => none
      | some (a, t) =>
        match ht : skipGap t with
        | [] => none
        | d :: u =>
          have : u.length < s.length := by
            have := item.shorter hi
            have := hs ▸ length_skipGap_le s
            have := ht ▸ length_skipGap_le t
            simp only [List.length_cons] at *; omega
          if d = ',' then readItems item (a :: acc) u
          else if d = ']' then some ((a :: acc).reverse, u)
          else none
termination_by s.length

theorem length_of_readItems {α : Type} {item : Reader α} {acc l : List α} {s r : List Char}
    (h : readItems item acc s = some (l, r)) : r.length < s.length := by
  fun_induction readItems item acc s with
  | case1 => simp at h
  | case2 acc s t hs =>
    simp only [Option.some.injEq, Prod.mk.injEq] at h
    obtain ⟨-, rfl⟩ := h
    have := hs ▸ length_skipGap_le s
    simp only [List.length_cons] at this; omega
  | case3 => simp at h
  | case4 => simp at h
  | case5 acc s c t hs _ a u hi v ht hlt ih =>
    have := ih h
    omega
  | case6 acc s c t hs _ a u hi v ht hlt =>
    simp only [Option.some.injEq, Prod.mk.injEq] at h
    obtain ⟨-, rfl⟩ := h
    exact hlt
  | case7 => simp at h

/-! ## Assignments and inline tables -/

structure Assignment where
  path : List String
  key : String
  value : Value

/-- The last key of a path and those before it, if there are not too many. -/
def splitPath? (p : List String) : Option (List String × String) :=
  if maxPath < p.length then none else p.getLast?.map (p.dropLast, ·)

/-- Reads an assignment, where `gap` passes over what may stand around the sign. -/
def readAssignment (gap : List Char → List Char) (value : Reader Value) (s : List Char) :
    Option (Assignment × List Char) := do
  let (p, r) ← readPath [] s
  let (path, key) ← splitPath? p
  match gap r with
  | '=' :: t =>
    let (v, u) ← value.run (gap t)
    return (⟨path, key, v⟩, u)
  | _ => none

theorem length_of_readAssignment {gap : List Char → List Char} {value : Reader Value}
    (hgap : ∀ s, (gap s).length ≤ s.length) {s r : List Char} {a : Assignment}
    (h : readAssignment gap value s = some (a, r)) : r.length < s.length := by
  unfold readAssignment at h
  simp only [bind, Option.bind_eq_some_iff, Prod.exists] at h
  obtain ⟨p, t, hp, path, key, -, h⟩ := h
  have := length_of_readPath hp
  have ht := hgap t
  split at h
  · next u hu =>
    simp only [Option.bind_eq_some_iff, Prod.exists, pure, Option.some.injEq, Prod.mk.injEq] at h
    obtain ⟨v, w, hv, -, rfl⟩ := h
    have := value.shorter hv
    have := hgap u
    simp only [hu, List.length_cons] at ht
    omega
  · simp at h

/-- Reads the entries of an inline table from behind its brace or behind a comma, into the
entries read so far. -/
def readEntries (value : Reader Value) (acc : Entries) (s : List Char) :
    Option (Entries × List Char) :=
  match hs : skipGap s with
  | [] => none
  | c :: r =>
    if c = '\x7d' then some (acc, r)
    else
      match hi : readAssignment skipGap value (c :: r) with
      | none => none
      | some (a, t) =>
        match acc.assign? a.path a.key a.value with
        | none => none
        | some acc' =>
          match ht : skipGap t with
          | [] => none
          | d :: u =>
            have : u.length < s.length := by
              have := length_of_readAssignment length_skipGap_le hi
              have := hs ▸ length_skipGap_le s
              have := ht ▸ length_skipGap_le t
              simp only [List.length_cons] at *; omega
            if d = ',' then readEntries value acc' u
            else if d = '\x7d' then some (acc', u)
            else none
termination_by s.length

theorem length_of_readEntries {value : Reader Value} {acc e : Entries} {s r : List Char}
    (h : readEntries value acc s = some (e, r)) : r.length < s.length := by
  fun_induction readEntries value acc s with
  | case1 => simp at h
  | case2 acc s t hs =>
    simp only [Option.some.injEq, Prod.mk.injEq] at h
    obtain ⟨-, rfl⟩ := h
    have := hs ▸ length_skipGap_le s
    simp only [List.length_cons] at this; omega
  | case3 => simp at h
  | case4 => simp at h
  | case5 => simp at h
  | case6 acc s c t hs _ a u hi acc' ha v ht hlt ih =>
    have := ih h
    omega
  | case7 acc s c t hs _ a u hi acc' ha v ht hlt =>
    simp only [Option.some.injEq, Prod.mk.injEq] at h
    obtain ⟨-, rfl⟩ := h
    exact hlt
  | case8 => simp at h

/-! ## Values -/

def readFlat (s : List Char) : Option (Value × List Char) :=
  match s with
  | '"' :: _ | '\'' :: _ => (readString? s).map fun p => (.string (String.ofList p.1), p.2)
  | _ => readScalar s

theorem length_of_readFlat {s r : List Char} {v : Value} (h : readFlat s = some (v, r)) :
    r.length < s.length := by
  unfold readFlat at h
  split at h
  · simp only [Option.map_eq_some_iff, Prod.mk.injEq] at h
    obtain ⟨p, hp, -, rfl⟩ := h
    exact length_of_readString? (l := p.1) (r := p.2) hp
  · simp only [Option.map_eq_some_iff, Prod.mk.injEq] at h
    obtain ⟨p, hp, -, rfl⟩ := h
    exact length_of_readString? (l := p.1) (r := p.2) hp
  · exact length_of_readScalar h

/-- Reads a value with values inside that are read by `inner`. -/
def readNested (inner : Reader Value) (s : List Char) : Option (Value × List Char) :=
  match s with
  | '[' :: r => (readItems inner [] r).map fun p => (.array p.1, p.2)
  | '\x7b' :: r => (readEntries inner [] r).map fun p => (.table .inline p.1, p.2)
  | _ => readFlat s

theorem length_of_readNested {inner : Reader Value} {s r : List Char} {v : Value}
    (h : readNested inner s = some (v, r)) : r.length < s.length := by
  unfold readNested at h
  split at h
  · simp only [Option.map_eq_some_iff, Prod.mk.injEq] at h
    obtain ⟨p, hp, -, rfl⟩ := h
    have := length_of_readItems (l := p.1) (r := p.2) hp
    simp only [List.length_cons]; omega
  · simp only [Option.map_eq_some_iff, Prod.mk.injEq] at h
    obtain ⟨p, hp, -, rfl⟩ := h
    have := length_of_readEntries (e := p.1) (r := p.2) hp
    simp only [List.length_cons]; omega
  · exact length_of_readFlat h

/-- Values with at most this many arrays and inline tables around the innermost ones. -/
def valueReader : Nat → Reader Value
  | 0 => ⟨readFlat, length_of_readFlat⟩
  | depth + 1 => ⟨readNested (valueReader depth), length_of_readNested⟩

/-! ## Documents -/

inductive Statement where
  | table (path : List String) (key : String)
  | item (path : List String) (key : String)
  | assign (a : Assignment)

/-- Reads a header from behind its first bracket. -/
def readHeader (s : List Char) : Option (Statement × List Char) :=
  match s with
  | '[' :: r => do
    let (p, t) ← readPath [] r
    let (path, key) ← splitPath? p
    match t with
    | ']' :: ']' :: u => some (.item path key, u)
    | _ => none
  | _ => do
    let (p, t) ← readPath [] s
    let (path, key) ← splitPath? p
    match t with
    | ']' :: u => some (.table path key, u)
    | _ => none

def readPlainStatement (s : List Char) : Option (Statement × List Char) :=
  match s with
  | '[' :: r => readHeader r
  | _ => (readAssignment skipSpace (valueReader maxDepth) s).map fun p => (.assign p.1, p.2)

/-- Reads a statement and the rest of its line. -/
def readStatement (s : List Char) : Option (Statement × List Char) := do
  let (st, r) ← readPlainStatement s
  let t ← endLine? r
  return (st, t)

theorem length_of_readHeader {s r : List Char} {st : Statement}
    (h : readHeader s = some (st, r)) : r.length < s.length := by
  unfold readHeader at h
  split at h
  · simp only [bind, Option.bind_eq_some_iff, Prod.exists] at h
    obtain ⟨p, t, hp, path, key, -, h⟩ := h
    have := length_of_readPath hp
    split at h
    · simp only [Option.some.injEq, Prod.mk.injEq] at h
      obtain ⟨-, rfl⟩ := h
      simp only [List.length_cons] at *; omega
    · simp at h
  · simp only [bind, Option.bind_eq_some_iff, Prod.exists] at h
    obtain ⟨p, t, hp, path, key, -, h⟩ := h
    have := length_of_readPath hp
    split at h
    · simp only [Option.some.injEq, Prod.mk.injEq] at h
      obtain ⟨-, rfl⟩ := h
      simp only [List.length_cons] at *; omega
    · simp at h

theorem length_of_readPlainStatement {s r : List Char} {st : Statement}
    (h : readPlainStatement s = some (st, r)) : r.length < s.length := by
  unfold readPlainStatement at h
  split at h
  · have := length_of_readHeader h
    simp only [List.length_cons]; omega
  · simp only [Option.map_eq_some_iff, Prod.mk.injEq] at h
    obtain ⟨p, hp, -, rfl⟩ := h
    exact length_of_readAssignment length_skipSpace_le (a := p.1) (r := p.2) hp

theorem length_of_readStatement {s r : List Char} {st : Statement}
    (h : readStatement s = some (st, r)) : r.length < s.length := by
  unfold readStatement at h
  simp only [bind, Option.bind_eq_some_iff, Prod.exists, pure, Option.some.injEq,
    Prod.mk.injEq] at h
  obtain ⟨st', t, hst, u, hu, -, rfl⟩ := h
  have := length_of_readPlainStatement hst
  have := length_of_endLine? hu
  omega

/-- The statements of a document.  Those read so far stand in `acc`, the last one first. -/
def readStatements (acc : List Statement) (s : List Char) : Option (List Statement) :=
  match hs : skipGap s with
  | [] => some acc.reverse
  | c :: r =>
    match h : readStatement (c :: r) with
    | none => none
    | some (st, t) =>
      have : t.length < s.length :=
        Nat.lt_of_lt_of_le (length_of_readStatement h) (hs ▸ length_skipGap_le s)
      readStatements (st :: acc) t
termination_by s.length

/-- The table of a document while it is put together, and the header that was opened
last. -/
structure Draft where
  header : List String := []
  entries : Entries := []

def Draft.step? (d : Draft) : Statement → Option Draft
  | .table path key =>
    (d.entries.openTable? path key).map fun e => ⟨path ++ [key], e⟩
  | .item path key =>
    (d.entries.openItem? path key).map fun e => ⟨path ++ [key], e⟩
  | .assign a =>
    (d.entries.assignAt? d.header a.path a.key a.value).map fun e => ⟨d.header, e⟩

def build? (sts : List Statement) : Option Entries :=
  (sts.foldlM Draft.step? {}).map Draft.entries

/-- The table of a document.  A byte order mark at its beginning is skipped. -/
def read? (text : String) : Option Entries :=
  let s := text.toList
  let body := if s.head? = some '\ufeff' then s.tail else s
  (readStatements [] body).bind build?

end Toml
end ChangeImpact
