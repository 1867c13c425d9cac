/-
Numbers, truth values, dates and times of TOML.

All of them are written without quotes or brackets, as one run of characters up
to the next mark or the end of the line.  Each form is a test on such a run.
Blanks inside a run belong to it, as the space between a date and a time does.

An integer is told by its form before its number is made, so a few texts count
as integers although they stand for no number.  A document that holds one can be
read as long as nobody asks for the number.
-/
import ChangeImpact.Text.Split
import ChangeImpact.Toml.Scan
import ChangeImpact.Toml.Value

namespace ChangeImpact
namespace Toml

/-! ## Runs -/

/-- The marks of arrays, tables, entries and comments, and the ends of lines. -/
def isMark (c : Char) : Bool :=
  ['=', ',', '[', ']', '\x7b', '\x7d', '#', '\r', '\n'].contains c

/-- The characters of a run, apart from the blanks inside. -/
def isRunChar (c : Char) : Bool :=
  !isMark c && !isSpace c

/-- Whether a text starts with a run.  A quote starts a string instead. -/
def startsRun : List Char → Bool
  | [] => false
  | c :: _ => isRunChar c && c ≠ '"' && c ≠ '\''

/-- The run at the beginning of a text, and what follows.  Blanks that a run follows are
inside, and those at the end are not. -/
def readRun (s : List Char) : List Char × List Char :=
  let word := s.takeWhile isRunChar
  let rest := s.dropWhile isRunChar
  let gap := rest.takeWhile isSpace
  let next := rest.dropWhile isSpace
  if gap ≠ [] ∧ startsRun next then
    let (more, last) := readRun next
    (word ++ gap ++ more, last)
  else (word, rest)
termination_by s.length
decreasing_by
  next h =>
  have hgap : 0 < gap.length := List.length_pos_iff.2 h.1
  have hrest : gap.length + next.length = rest.length := by
    rw [← List.length_append, List.takeWhile_append_dropWhile]
  have := (s.dropWhile_sublist isRunChar).length_le
  simp only [gap, next, rest] at *
  omega

/-- Nothing is lost. -/
theorem append_readRun (s : List Char) : (readRun s).1 ++ (readRun s).2 = s := by
  fun_induction readRun s with
  | case1 s word rest gap next h more last hr ih =>
    rw [hr] at ih
    simp only [List.append_assoc, ih, gap, next, rest, word, List.takeWhile_append_dropWhile]
  | case2 s word rest gap next h => exact List.takeWhile_append_dropWhile

theorem readRun_fst_ne_nil {s : List Char} (h : startsRun s = true) : (readRun s).1 ≠ [] := by
  cases s with
  | nil => simp [startsRun] at h
  | cons c r =>
    have hc : isRunChar c = true := by
      simp only [startsRun, Bool.and_eq_true] at h
      exact h.1.1
    rw [readRun]
    dsimp only
    split <;> simp [hc]

theorem length_of_readRun {s : List Char} (h : startsRun s = true) :
    (readRun s).2.length < s.length := by
  have hs := congrArg List.length (append_readRun s)
  have hpos := List.length_pos_iff.2 (readRun_fst_ne_nil h)
  rw [List.length_append] at hs
  omega

/-! ## Digits -/

/-- Whether a group begins and ends with digits and has single underscores only between
digits.  What stands before the text is a digit or not. -/
def isDigitGroup (isDigit : Char → Bool) (afterDigit : Bool) : List Char → Bool
  | [] => afterDigit
  | c :: r =>
    if c = '_' then afterDigit && isDigitGroup isDigit false r
    else isDigit c && isDigitGroup isDigit true r

/-- The digits of a group, without its underscores. -/
def digitGroup? (isDigit : Char → Bool) (s : List Char) : Option (List Char) :=
  if isDigitGroup isDigit false s then some (s.filter (· ≠ '_')) else none

/-- The value of a digit of any base up to sixteen. -/
def digitOf (c : Char) : Nat :=
  if c.isDigit then c.toNat - '0'.toNat
  else if c.isLower then c.toNat - 'a'.toNat + 10
  else c.toNat - 'A'.toNat + 10

def ofDigits (base : Nat) (ds : List Char) : Nat :=
  ds.foldl (fun n c => n * base + digitOf c) 0

def isHexDigit (c : Char) : Bool :=
  c.isDigit || ('a' ≤ c && c ≤ 'f') || ('A' ≤ c && c ≤ 'F')

/-- The digits of a decimal number, without a needless zero in front. -/
def decimalDigits? (s : List Char) : Option (List Char) :=
  match digitGroup? Char.isDigit s with
  | some ('0' :: _ :: _) => none
  | ds => ds

/-! ## Numbers -/

/-- What follows a sign, and whether the sign is a minus. -/
def splitSign : List Char → Bool × List Char
  | '+' :: r => (false, r)
  | '-' :: r => (true, r)
  | s => (false, s)

def integer? (s : List Char) : Option Int :=
  match s with
  | '0' :: 'x' :: r => (digitGroup? isHexDigit r).map fun ds => (ofDigits 16 ds : Int)
  | '0' :: 'o' :: r =>
    (digitGroup? (fun c => '0' ≤ c && c ≤ '7') r).map fun ds => (ofDigits 8 ds : Int)
  | '0' :: 'b' :: r =>
    (digitGroup? (fun c => c = '0' || c = '1') r).map fun ds => (ofDigits 2 ds : Int)
  | _ =>
    let (negative, r) := splitSign s
    (decimalDigits? r).map fun ds =>
      if negative then -(ofDigits 10 ds : Int) else (ofDigits 10 ds : Int)

/-- Whether a text has the form of a decimal number with underscores.  Behind its first
digits only the characters beside an underscore count, and any hexadecimal digit passes
there.  With a point, an exponent or a space it is no integer. -/
def hasGroups (s : List Char) : Bool :=
  match Text.split '_' s with
  | first :: p :: r =>
    (first.head?.any fun c => c ≠ '0') && first.all Char.isDigit &&
      ((p :: r).all fun q => q.head?.any isHexDigit) &&
      ((p :: r).dropLast.all fun q => q.getLast?.any isHexDigit) &&
      s.all fun c => c ≠ '.' && c ≠ 'e' && c ≠ 'E' && c ≠ ' '
  | _ => false

/-- Whether a text for which `integer?` finds no number has the form of an integer all the
same: a base without digits, or groups of characters that are not all digits. -/
def hasIntegerForm (s : List Char) : Bool :=
  s = "0x".toList || s = "0o".toList || s = "0b".toList || hasGroups (splitSign s).2

/-- The least number that double precision rounds to infinity. -/
def infinityBound : Nat := Nat.pow 2 1024 - Nat.pow 2 970

/-- Whether the number with these digits times `10 ^ e` rounds to a finite one. -/
def fitsDouble (ds : List Char) (e : Int) : Bool :=
  let significant := ds.dropWhile (· = '0')
  let n := ofDigits 10 significant
  -- The number lies below ten to this power and not below a tenth of that.
  let top : Int := significant.length + e
  if n = 0 || top ≤ 308 then true
  else if 310 ≤ top then false
  else n * Nat.pow 10 e.toNat < infinityBound * Nat.pow 10 (-e).toNat

/-- The exponent of a number, from behind its letter. -/
def exponent? (s : List Char) : Option Int :=
  let (negative, r) := splitSign s
  (digitGroup? Char.isDigit r).map fun ds =>
    if negative then -(ofDigits 10 ds : Int) else (ofDigits 10 ds : Int)

def isGroupChar (c : Char) : Bool :=
  c.isDigit || c = '_'

/-- Whether a number with a point or an exponent is in range. -/
def float? (s : List Char) : Option Bool := do
  let (_, r) := splitSign s
  if r = "inf".toList || r = "nan".toList then return true
  let whole ← decimalDigits? (r.takeWhile isGroupChar)
  match r.dropWhile isGroupChar with
  | '.' :: t =>
    let part ← digitGroup? Char.isDigit (t.takeWhile isGroupChar)
    match t.dropWhile isGroupChar with
    | [] => return fitsDouble (whole ++ part) (-part.length)
    | 'e' :: u | 'E' :: u =>
      let e ← exponent? u
      return fitsDouble (whole ++ part) (e - part.length)
    | _ => none
  | 'e' :: u | 'E' :: u =>
    let e ← exponent? u
    return fitsDouble whole e
  | _ => none

/-! ## Dates and times -/

def twoDigits? : List Char → Option (Nat × List Char)
  | a :: b :: r => if a.isDigit && b.isDigit then some (ofDigits 10 [a, b], r) else none
  | _ => none

/-- What follows the character `c`. -/
def past? (c : Char) : List Char → Option (List Char)
  | [] => none
  | d :: r => if d = c then some r else none

def isLeapYear (year : Nat) : Bool :=
  year % 4 = 0 && (year % 100 ≠ 0 || year % 400 = 0)

def daysInMonth (year month : Nat) : Nat :=
  if month = 2 then if isLeapYear year then 29 else 28
  else if month = 4 || month = 6 || month = 9 || month = 11 then 30
  else 31

/-- What follows a date of the calendar. -/
def pastDate? (s : List Char) : Option (List Char) := do
  let (century, r) ← twoDigits? s
  let (years, r) ← twoDigits? r
  let (month, r) ← twoDigits? (← past? '-' r)
  let (day, r) ← twoDigits? (← past? '-' r)
  if 1 ≤ month && month ≤ 12 && 1 ≤ day && day ≤ daysInMonth (100 * century + years) month then
    some r
  else none

/-- What follows the seconds and their fraction, if they are given. -/
def pastSeconds? (s : List Char) : Option (List Char) :=
  match s with
  | ':' :: t => do
    let (second, r) ← twoDigits? t
    if 60 < second then none
    else
      match r with
      | '.' :: u => if (u.takeWhile Char.isDigit).isEmpty then none else some (u.dropWhile Char.isDigit)
      | _ => some r
  | _ => some s

/-- What follows a time of day.  A leap second is allowed. -/
def pastTime? (s : List Char) : Option (List Char) := do
  let (hour, r) ← twoDigits? s
  let (minute, r) ← twoDigits? (← past? ':' r)
  if hour ≤ 23 && minute ≤ 59 then pastSeconds? r else none

/-- Whether the text is an offset from universal time, or nothing. -/
def isOffset (s : List Char) : Bool :=
  match s with
  | [] | ['Z'] | ['z'] => true
  | c :: t =>
    (c = '+' || c = '-') &&
      match twoDigits? t with
      | some (hour, ':' :: u) =>
        match twoDigits? u with
        | some (minute, []) => hour ≤ 23 && minute ≤ 59
        | _ => false
      | _ => false

/-- Whether the run is a date, a time, or both with or without an offset. -/
def isMoment (s : List Char) : Bool :=
  match pastDate? s with
  | some [] => true
  | some (c :: t) =>
    (c = 'T' || c = 't' || c = ' ') &&
      match pastTime? t with
      | some r => isOffset r
      | none => false
  | none => pastTime? s == some []

/-! ## Values -/

def scalar? (s : List Char) : Option Value :=
  if s = "true".toList then some (.boolean true)
  else if s = "false".toList then some (.boolean false)
  else if isMoment s then some .moment
  else
    match integer? s with
    | some n => some (.integer (some n))
    | none => if hasIntegerForm s then some (.integer none) else (float? s).map .float

def readScalar (s : List Char) : Option (Value × List Char) :=
  if startsRun s then (scalar? (readRun s).1).map (·, (readRun s).2) else none

theorem length_of_readScalar {s r : List Char} {v : Value} (h : readScalar s = some (v, r)) :
    r.length < s.length := by
  unfold readScalar at h
  split at h
  · next hs =>
    simp only [Option.map_eq_some_iff, Prod.mk.injEq] at h
    obtain ⟨_, _, -, rfl⟩ := h
    exact length_of_readRun hs
  · simp at h

end Toml
end ChangeImpact
