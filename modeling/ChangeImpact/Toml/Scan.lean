/-
Blanks, comments, strings and keys of TOML.

A line ends at a line feed, with or without a carriage return before it; a
carriage return anywhere else is refused, like every other control character but
the tab.  Strings over several lines keep their line ends as they are written.
-/
import ChangeImpact.Text.Hex

namespace ChangeImpact
namespace Toml

def isSpace (c : Char) : Bool :=
  c = ' ' || c = '\t'

def skipSpace (s : List Char) : List Char :=
  s.dropWhile isSpace

theorem length_skipSpace_le (s : List Char) : (skipSpace s).length ≤ s.length :=
  (List.dropWhile_sublist _).length_le

/-- The characters that may stand in a comment or a string as they are. -/
def isPlain (c : Char) : Bool :=
  c = '\t' || (0x20 ≤ c.toNat && c.toNat ≠ 0x7f)

/-- The text behind a comment, if there is one. -/
def skipComment (s : List Char) : List Char :=
  match s with
  | '#' :: r => r.dropWhile isPlain
  | _ => s

theorem length_skipComment_le (s : List Char) : (skipComment s).length ≤ s.length := by
  unfold skipComment
  split
  · next r =>
    have := (r.dropWhile_sublist isPlain).length_le
    simp only [List.length_cons]; omega
  · exact Nat.le_refl _

def pastNewline? : List Char → Option (List Char)
  | '\n' :: r => some r
  | '\r' :: '\n' :: r => some r
  | _ => none

theorem length_of_pastNewline? {s r : List Char} (h : pastNewline? s = some r) :
    r.length < s.length := by
  unfold pastNewline? at h
  split at h
  · simp only [Option.some.injEq] at h
    subst h; simp
  · simp only [Option.some.injEq] at h
    subst h; simp only [List.length_cons]; omega
  · simp at h

/-- The text behind blanks, comments and ends of lines. -/
def skipGap (s : List Char) : List Char :=
  match h : pastNewline? (skipComment (skipSpace s)) with
  | some r =>
    have := length_of_pastNewline? h
    skipGap r
  | none => skipComment (skipSpace s)
termination_by s.length
decreasing_by
  have := length_skipComment_le (skipSpace s)
  have := length_skipSpace_le s
  omega

theorem length_skipGap_le (s : List Char) : (skipGap s).length ≤ s.length := by
  fun_induction skipGap s with
  | case1 s r h ih =>
    have := length_of_pastNewline? h
    have := length_skipComment_le (skipSpace s)
    have := length_skipSpace_le s
    omega
  | case2 s =>
    have := length_skipComment_le (skipSpace s)
    have := length_skipSpace_le s
    omega

/-- The text behind the end of a line, or behind the last line. -/
def endLine? (s : List Char) : Option (List Char) :=
  match skipComment (skipSpace s) with
  | [] => some []
  | t => pastNewline? t

theorem length_of_endLine? {s r : List Char} (h : endLine? s = some r) :
    r.length ≤ s.length := by
  have hs := length_skipSpace_le s
  have hc := length_skipComment_le (skipSpace s)
  unfold endLine? at h
  split at h
  · simp only [Option.some.injEq] at h
    subst h; simp
  · have := length_of_pastNewline? h
    omega

/-! ## Strings -/

/-- Reads a character that is given by `k` hexadecimal digits, in front of which stand
digits with the value `n`. -/
def readCode (n : Nat) : Nat → List Char → Option (Char × List Char)
  | 0, s => if n.isValidChar then some (Char.ofNat n, s) else none
  | _ + 1, [] => none
  | k + 1, c :: r =>
    match Text.hexValue? c with
    | some d => readCode (16 * n + d) k r
    | none => none

theorem length_of_readCode {n k : Nat} {s r : List Char} {d : Char}
    (h : readCode n k s = some (d, r)) : r.length ≤ s.length := by
  induction k generalizing n s with
  | zero =>
    rw [readCode] at h
    split at h
    · simp only [Option.some.injEq, Prod.mk.injEq] at h
      obtain ⟨-, rfl⟩ := h
      exact Nat.le_refl _
    · simp at h
  | succ k ih =>
    cases s with
    | nil => simp [readCode] at h
    | cons c s =>
      rw [readCode] at h
      split at h
      · have := ih h
        simp only [List.length_cons]; omega
      · simp at h

/-- The character that a letter stands for after a backslash. -/
def shortEscape? : Char → Option Char
  | 'b' => some '\x08'
  | 't' => some '\t'
  | 'n' => some '\n'
  | 'f' => some '\x0c'
  | 'r' => some '\r'
  | 'e' => some '\x1b'
  | '"' => some '"'
  | '\\' => some '\\'
  | _ => none

/-- How many hexadecimal digits follow a letter after a backslash. -/
def codeLength? : Char → Option Nat
  | 'x' => some 2
  | 'u' => some 4
  | 'U' => some 8
  | _ => none

def readEscape : List Char → Option (Char × List Char)
  | [] => none
  | c :: r =>
    match codeLength? c with
    | some k => readCode 0 k r
    | none => (shortEscape? c).map (·, r)

theorem length_of_readEscape {s r : List Char} {d : Char} (h : readEscape s = some (d, r)) :
    r.length < s.length := by
  unfold readEscape at h
  split at h
  · simp at h
  · split at h
    · have := length_of_readCode h
      simp only [List.length_cons]; omega
    · simp only [Option.map_eq_some_iff, Prod.mk.injEq] at h
      obtain ⟨_, _, -, rfl⟩ := h
      simp

/-- Reads a basic string on one line, from behind its opening quote.  The characters read
so far stand in `acc`, the last one first. -/
def readBasic (acc : List Char) (s : List Char) : Option (List Char × List Char) :=
  match s with
  | [] => none
  | c :: r =>
    if c = '"' then some (acc.reverse, r)
    else if c = '\\' then
      match h : readEscape r with
      | none => none
      | some (d, t) =>
        have := length_of_readEscape h
        readBasic (d :: acc) t
    else if isPlain c then readBasic (c :: acc) r
    else none
termination_by s.length

theorem length_of_readBasic {acc s l r : List Char} (h : readBasic acc s = some (l, r)) :
    r.length < s.length := by
  fun_induction readBasic acc s with
  | case1 => simp at h
  | case2 acc t =>
    simp only [Option.some.injEq, Prod.mk.injEq] at h
    obtain ⟨-, rfl⟩ := h
    simp
  | case3 => simp at h
  | case4 acc t d u _ _ hlt ih =>
    have := ih h
    simp only [List.length_cons]; omega
  | case5 acc c t _ _ _ ih =>
    have := ih h
    simp only [List.length_cons]; omega
  | case6 => simp at h

/-- Reads a literal string on one line, from behind its opening quote. -/
def readRaw (s : List Char) : Option (List Char × List Char) :=
  match s.dropWhile fun c => isPlain c && c ≠ '\'' with
  | '\'' :: r => some (s.takeWhile fun c => isPlain c && c ≠ '\'', r)
  | _ => none

theorem length_of_readRaw {s l r : List Char} (h : readRaw s = some (l, r)) :
    r.length < s.length := by
  have hs := (s.dropWhile_sublist fun c => isPlain c && c ≠ '\'').length_le
  unfold readRaw at h
  split at h
  · next hd =>
    simp only [Option.some.injEq, Prod.mk.injEq] at h
    obtain ⟨-, rfl⟩ := h
    simp only [hd, List.length_cons] at hs; omega
  · simp at h

/-- The text behind blanks and ends of lines. -/
def skipLines (s : List Char) : List Char :=
  match h : pastNewline? (skipSpace s) with
  | some r =>
    have := length_of_pastNewline? h
    skipLines r
  | none => skipSpace s
termination_by s.length
decreasing_by
  have := length_skipSpace_le s
  omega

theorem length_skipLines_le (s : List Char) : (skipLines s).length ≤ s.length := by
  fun_induction skipLines s with
  | case1 s r h ih =>
    have := length_of_pastNewline? h
    have := length_skipSpace_le s
    omega
  | case2 s => exact length_skipSpace_le s

/-- The end of a string over several lines: two more quotes after the one that has been
read, and up to two in front of them that belong to the string. -/
def closeLong? (q : Char) : List Char → Option (List Char × List Char)
  | a :: b :: r =>
    if a = q && b = q then
      match r with
      | c :: d :: t =>
        if c = q && d = q then some ([q, q], t)
        else if c = q then some ([q], d :: t)
        else some ([], r)
      | [c] => if c = q then some ([q], []) else some ([], r)
      | [] => some ([], r)
    else none
  | _ => none

theorem length_of_closeLong? {q : Char} {s l r : List Char} (h : closeLong? q s = some (l, r)) :
    r.length < s.length := by
  unfold closeLong? at h
  repeat' split at h
  all_goals
    simp only [Option.some.injEq, Prod.mk.injEq, reduceCtorEq] at h
  all_goals
    obtain ⟨-, rfl⟩ := h
    simp only [List.length_cons]; omega

/-- The text behind a backslash at the end of a line, and behind all blanks and ends of
lines after it. -/
def continueLine? (s : List Char) : Option (List Char) :=
  (pastNewline? (skipSpace s)).map skipLines

theorem length_of_continueLine? {s r : List Char} (h : continueLine? s = some r) :
    r.length < s.length := by
  simp only [continueLine?, Option.map_eq_some_iff] at h
  obtain ⟨t, ht, rfl⟩ := h
  have := length_of_pastNewline? ht
  have := length_skipLines_le t
  have := length_skipSpace_le s
  omega

/-- One character of a string over several lines that stands for itself. -/
def readLongChar? (s : List Char) : Option (List Char × List Char) :=
  match s with
  | '\n' :: r => some (['\n'], r)
  | '\r' :: '\n' :: r => some (['\n', '\r'], r)
  | c :: r => if isPlain c then some ([c], r) else none
  | [] => none

theorem length_of_readLongChar? {s l r : List Char} (h : readLongChar? s = some (l, r)) :
    r.length < s.length := by
  unfold readLongChar? at h
  split at h
  · simp only [Option.some.injEq, Prod.mk.injEq] at h
    obtain ⟨-, rfl⟩ := h; simp
  · simp only [Option.some.injEq, Prod.mk.injEq] at h
    obtain ⟨-, rfl⟩ := h; simp only [List.length_cons]; omega
  · split at h
    · simp only [Option.some.injEq, Prod.mk.injEq] at h
      obtain ⟨-, rfl⟩ := h; simp
    · simp at h
  · simp at h

/-- Reads a string over several lines from behind its opening quotes `q`, with escapes or
without. -/
def readLong (q : Char) (escapes : Bool) (acc : List Char) (s : List Char) :
    Option (List Char × List Char) :=
  match s with
  | [] => none
  | c :: r =>
    if c = q then
      match closeLong? q r with
      | some (l, t) => some (acc.reverse ++ l, t)
      | none => readLong q escapes (c :: acc) r
    else if escapes && c = '\\' then
      match hc : continueLine? r with
      | some t =>
        have := length_of_continueLine? hc
        readLong q escapes acc t
      | none =>
        match he : readEscape r with
        | none => none
        | some (d, t) =>
          have := length_of_readEscape he
          readLong q escapes (d :: acc) t
    else
      match hl : readLongChar? (c :: r) with
      | none => none
      | some (l, t) =>
        have := length_of_readLongChar? hl
        readLong q escapes (l ++ acc) t
termination_by s.length
decreasing_by all_goals simp only [List.length_cons] at *; omega

theorem length_of_readLong {q : Char} {escapes : Bool} {acc s l r : List Char}
    (h : readLong q escapes acc s = some (l, r)) : r.length < s.length := by
  fun_induction readLong q escapes acc s with
  | case1 => simp at h
  | case2 acc t m u hc =>
    simp only [Option.some.injEq, Prod.mk.injEq] at h
    obtain ⟨-, rfl⟩ := h
    have := length_of_closeLong? hc
    simp only [List.length_cons]; omega
  | case3 acc t _ ih =>
    have := ih h
    simp only [List.length_cons]; omega
  | case4 acc c t _ _ u _ hlt ih =>
    have := ih h
    simp only [List.length_cons]; omega
  | case5 => simp at h
  | case6 acc c t _ _ _ d u _ hlt ih =>
    have := ih h
    simp only [List.length_cons]; omega
  | case7 => simp at h
  | case8 acc c t _ _ m u _ hlt ih =>
    have := ih h
    omega

/-- The text behind one end of a line, if it comes first. -/
def trimFirst (s : List Char) : List Char :=
  (pastNewline? s).getD s

theorem length_trimFirst_le (s : List Char) : (trimFirst s).length ≤ s.length := by
  unfold trimFirst
  cases h : pastNewline? s with
  | none => exact Nat.le_refl _
  | some r => exact Nat.le_of_lt (length_of_pastNewline? h)

/-- Reads a string of any of the four forms. -/
def readString? (s : List Char) : Option (List Char × List Char) :=
  match s with
  | '"' :: '"' :: '"' :: r => readLong '"' true [] (trimFirst r)
  | '\'' :: '\'' :: '\'' :: r => readLong '\'' false [] (trimFirst r)
  | '"' :: r => readBasic [] r
  | '\'' :: r => readRaw r
  | _ => none

theorem length_of_readString? {s l r : List Char} (h : readString? s = some (l, r)) :
    r.length < s.length := by
  unfold readString? at h
  split at h
  · next t =>
    have := length_of_readLong h
    have := length_trimFirst_le t
    simp only [List.length_cons]; omega
  · next t =>
    have := length_of_readLong h
    have := length_trimFirst_le t
    simp only [List.length_cons]; omega
  · have := length_of_readBasic h
    simp only [List.length_cons]; omega
  · have := length_of_readRaw h
    simp only [List.length_cons]; omega
  · simp at h

/-! ## Keys -/

/-- The characters of a key without quotes. -/
def isKeyChar (c : Char) : Bool :=
  c.isAlphanum || c = '_' || c = '-'

def readKey (s : List Char) : Option (List Char × List Char) :=
  match s with
  | '"' :: r => readBasic [] r
  | '\'' :: r => readRaw r
  | _ =>
    if (s.takeWhile isKeyChar).isEmpty then none
    else some (s.takeWhile isKeyChar, s.dropWhile isKeyChar)

theorem length_of_readKey {s k r : List Char} (h : readKey s = some (k, r)) :
    r.length < s.length := by
  unfold readKey at h
  split at h
  · have := length_of_readBasic h
    simp only [List.length_cons]; omega
  · have := length_of_readRaw h
    simp only [List.length_cons]; omega
  · split at h
    · simp at h
    · next hne =>
      simp only [Option.some.injEq, Prod.mk.injEq] at h
      obtain ⟨-, rfl⟩ := h
      have hpos : 0 < (s.takeWhile isKeyChar).length := by
        rw [List.length_pos_iff]
        simpa using hne
      have hs : (s.takeWhile isKeyChar).length + (s.dropWhile isKeyChar).length = s.length := by
        rw [← List.length_append, List.takeWhile_append_dropWhile]
      omega

/-- Reads keys separated by points, and the blanks behind them.  Those read so far stand
in `acc`, the last one first. -/
def readPath (acc : List String) (s : List Char) : Option (List String × List Char) :=
  match hk : readKey (skipSpace s) with
  | none => none
  | some (k, r) =>
    match hd : skipSpace r with
    | '.' :: t =>
      have := length_of_readKey hk
      have := length_skipSpace_le s
      have := hd ▸ length_skipSpace_le r
      readPath (String.ofList k :: acc) t
    | t => some ((String.ofList k :: acc).reverse, t)
termination_by s.length
decreasing_by simp only [List.length_cons] at *; omega

theorem length_of_readPath {acc p : List String} {s r : List Char}
    (h : readPath acc s = some (p, r)) : r.length < s.length := by
  fun_induction readPath acc s with
  | case1 => simp at h
  | case2 acc s k t hk u hd _ _ hle ih =>
    have := length_of_readKey hk
    have := length_skipSpace_le s
    have := ih h
    simp only [List.length_cons] at hle
    omega
  | case3 acc s k t hk hd =>
    simp only [Option.some.injEq, Prod.mk.injEq] at h
    obtain ⟨-, rfl⟩ := h
    have := length_of_readKey hk
    have := length_skipSpace_le s
    have := length_skipSpace_le t
    omega

end Toml
end ChangeImpact
