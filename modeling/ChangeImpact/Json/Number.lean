/-
Numbers of JSON, as they are read before their type is refused.

An integer of 64 bits is read exactly.  Any other number is read in double
precision: as many digits as fit into 64 bits are taken, the others only move the
point, and the result is scaled once by a power of ten.  Two roundings take
place, so the value may differ from the nearest one in its last place.
-/
import ChangeImpact.Decimal.Shortest
import ChangeImpact.Json.Failure

namespace ChangeImpact
namespace Json
namespace Number

/-- Numbers from `0.00001` up to below ten quadrillions have no exponent. -/
def layout : Decimal.Digits.Layout := ⟨-5, 15⟩

/-- The greatest integer of 64 bits. -/
def maxSignificand : Nat := Nat.pow 2 64 - 1

def maxExponent : Nat := Nat.pow 2 31 - 1

def digitValue (c : Char) : Nat :=
  c.toNat - '0'.toNat

/-- Digits that follow the number `n`, taken as long as the number stays within `limit`.
Gives the number, how many digits were taken and the rest. -/
def takeDigits (limit n taken : Nat) : List Char → Nat × Nat × List Char
  | [] => (n, taken, [])
  | c :: r =>
    if c.isDigit && 10 * n + digitValue c ≤ limit then
      takeDigits limit (10 * n + digitValue c) (taken + 1) r
    else (n, taken, c :: r)

def startsWithDigit : List Char → Bool
  | [] => false
  | c :: _ => c.isDigit

def skipDigits (s : List Char) : List Char :=
  s.dropWhile Char.isDigit

def countDigits (s : List Char) : Nat :=
  (s.takeWhile Char.isDigit).length

/-- The number `x / 10 ^ n`, with one division if the power can be represented. -/
def scaleDown (x : Float) (n : Nat) : Float :=
  if n ≤ 308 then x / Float.ofScientific 1 false n
  else if x == 0.0 then x
  else scaleDown (x / Float.ofScientific 1 false 308) (n - 308)
termination_by n

/-- The number `n * 10 ^ e`, if it is finite. -/
def scale? (n : Nat) (e : Int) : Option Float :=
  let x := n.toUInt64.toFloat
  if e < 0 then some (scaleDown x e.natAbs)
  else if x == 0.0 then some x
  else if 308 < e then none
  else
    let y := x * Float.ofScientific 1 false e.toNat
    if y.isInf then none else some y

/-- A number in double precision, where the text goes on with `s`. -/
def float (negative : Bool) (n : Nat) (e : Int) (s : List Char) :
    Except Failure (Found × List Char) :=
  match scale? n e with
  | none => .error (.here .numberOutOfRange s)
  | some x => .ok (.float (Decimal.render layout (if negative then -x else x)), s)

/-- What remains after the sign of an exponent, and whether the sign is a minus. -/
def exponentSign : List Char → Bool × List Char
  | '+' :: r => (false, r)
  | '-' :: r => (true, r)
  | s => (false, s)

/-- The exponent that follows its letter, for the significand `n * 10 ^ e`. -/
def exponent (negative : Bool) (n : Nat) (e : Int) (s : List Char) :
    Except Failure (Found × List Char) :=
  let (down, r) := exponentSign s
  match r with
  | [] => .error (.here .endInValue [])
  | c :: t =>
    if !c.isDigit then .error (.next .invalidNumber r)
    else
      let (x, _, u) := takeDigits maxExponent (digitValue c) 1 t
      if startsWithDigit u then
        if n != 0 && !down then .error (.next .numberOutOfRange u)
        else float negative 0 0 (skipDigits u)
      else float negative n (if down then e - x else e + x) u

/-- What may follow the digits of the number `n * 10 ^ e`. -/
def exponentOrEnd (negative : Bool) (n : Nat) (e : Int) (s : List Char) :
    Except Failure (Found × List Char) :=
  match s with
  | 'e' :: r | 'E' :: r => exponent negative n e r
  | _ => float negative n e s

/-- The digits that follow the point, for the number `n * 10 ^ e` before it. -/
def fraction (negative : Bool) (n : Nat) (e : Int) (s : List Char) :
    Except Failure (Found × List Char) :=
  let (m, taken, r) := takeDigits maxSignificand n 0 s
  if startsWithDigit r then exponentOrEnd negative m (e - taken) (skipDigits r)
  else if taken = 0 then
    match r with
    | [] => .error (.here .endInValue [])
    | _ => .error (.next .invalidNumber r)
  else exponentOrEnd negative m (e - taken) r

/-- What may follow the digits of an integer, of which `dropped` did not fit into `n`. -/
def afterInteger (negative : Bool) (n dropped : Nat) (s : List Char) :
    Except Failure (Found × List Char) :=
  match s with
  | '.' :: r => fraction negative n dropped r
  | 'e' :: r | 'E' :: r => exponent negative n dropped r
  | _ =>
    if dropped != 0 then float negative n dropped s
    else if !negative then .ok (.integer n, s)
    else if n = 0 || Nat.pow 2 63 < n then float true n 0 s
    else .ok (.integer (-n), s)

def read (negative : Bool) : List Char → Except Failure (Found × List Char)
  | [] => .error (.here .endInValue [])
  | c :: r =>
    if c = '0' then
      if startsWithDigit r then .error (.next .invalidNumber r) else afterInteger negative 0 0 r
    else if c.isDigit then
      let (n, _, t) := takeDigits maxSignificand (digitValue c) 1 r
      afterInteger negative n (countDigits t) (skipDigits t)
    else .error (.next .invalidNumber (c :: r))

end Number
end Json
end ChangeImpact
