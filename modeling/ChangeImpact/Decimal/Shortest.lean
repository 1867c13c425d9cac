/-
The shortest decimal digits of a floating-point number.

A positive finite number in double precision stands for every real number that
rounds to it, an interval around its value.  Among the grids of the multiples of
a power of ten, the coarsest one with a point in that interval gives the fewest
digits that read back as the number, and the point nearer to the value is taken.
All arithmetic on the interval is exact.
-/

namespace ChangeImpact
namespace Decimal

/-- A positive number `digits * 10 ^ exponent`. -/
structure Digits where
  digits : Nat
  exponent : Int
deriving DecidableEq, Repr

/-- The real numbers that round to a floating-point number, as quarters of its last
place: the numbers from `low` to `high`, ends included if `closed`, times
`2 ^ exponent`. -/
structure Interval where
  low : Nat
  value : Nat
  high : Nat
  exponent : Int
  closed : Bool
deriving DecidableEq, Repr

namespace Interval

/-- The interval of the double with this significand and this exponent of two.  Below
the least significand with a leading one, numbers lie closer together. -/
def ofParts (significand : Nat) (exponent : Int) : Interval where
  low :=
    if significand = Nat.pow 2 52 && exponent > -1074 then 4 * significand - 1
    else 4 * significand - 2
  value := 4 * significand
  high := 4 * significand + 2
  exponent := exponent - 2
  closed := significand % 2 == 0

/-- The interval of the double with these bits, without their sign. -/
def ofBits (bits : Nat) : Interval :=
  let field : Nat := bits / Nat.pow 2 52 % Nat.pow 2 11
  let fraction : Nat := bits % Nat.pow 2 52
  if field = 0 then ofParts fraction (-1074)
  else ofParts (Nat.pow 2 52 + fraction) (field - 1075)

/-- The factors by which a bound and a multiple of `10 ^ p` become comparable natural
numbers. -/
def scales (i : Interval) (p : Int) : Nat × Nat :=
  (Nat.pow 2 i.exponent.toNat * Nat.pow 10 (-p).toNat,
    Nat.pow 2 (-i.exponent).toNat * Nat.pow 10 p.toNat)

/-- Whether `d * 10 ^ p` lies in the interval. -/
def holds (i : Interval) (p : Int) (d : Nat) : Bool :=
  let s := i.scales p
  if i.closed then i.low * s.1 ≤ d * s.2 && d * s.2 ≤ i.high * s.1
  else i.low * s.1 < d * s.2 && d * s.2 < i.high * s.1

/-- The point of the grid of `10 ^ p` in the interval that is nearest to the value, the
even one if two are. -/
def nearest? (i : Interval) (p : Int) : Option Digits :=
  let s := i.scales p
  let d := i.value * s.1 / s.2
  let below := i.value * s.1 - d * s.2
  let above := (d + 1) * s.2 - i.value * s.1
  let low := i.holds p d && d != 0
  let high := i.holds p (d + 1)
  if low && (!high || below < above || (below = above && d % 2 = 0)) then some ⟨d, p⟩
  else if high then some ⟨d + 1, p⟩
  else none

/-- The nearest point on the coarsest grid that has a point in the interval. -/
def shortest? (i : Interval) : Option Digits :=
  (List.range 634).findSome? fun k => i.nearest? (309 - Int.ofNat k)

end Interval

/-- The shortest digits of a finite number other than zero, without its sign. -/
def shortest? (x : Float) : Option Digits :=
  let bits := x.toBits.toNat % Nat.pow 2 63
  if bits = 0 then none else (Interval.ofBits bits).shortest?

namespace Digits

/-- How numbers are laid out: those whose leading digit stands for a power of ten from
`least` to `greatest` without an exponent. -/
structure Layout where
  least : Int
  greatest : Int
deriving DecidableEq, Repr

/-- The digits with a point and, outside the range of the layout, with a signed
exponent.  Without an exponent there is a digit on either side of the point. -/
def format (l : Layout) (d : Digits) : String :=
  let ds := Nat.toDigits 10 d.digits
  let lead : Int := d.exponent + ds.length - 1
  if lead < l.least || l.greatest < lead then
    let fraction := if ds.length = 1 then [] else '.' :: ds.drop 1
    String.ofList (ds.take 1 ++ fraction ++ ['e', if lead < 0 then '-' else '+']) ++
      toString lead.natAbs
  else if 0 ≤ d.exponent then
    String.ofList (ds ++ List.replicate d.exponent.toNat '0' ++ ['.', '0'])
  else if 0 ≤ lead then
    String.ofList (ds.take (lead.toNat + 1) ++ '.' :: ds.drop (lead.toNat + 1))
  else
    String.ofList ('0' :: '.' :: List.replicate (-lead - 1).toNat '0' ++ ds)

end Digits

/-- A finite number by its shortest digits, zero as `0.0`, with its sign. -/
def render (l : Digits.Layout) (x : Float) : String :=
  let sign := if x.toBits.toNat / Nat.pow 2 63 = 1 then "-" else ""
  match shortest? x with
  | none => sign ++ "0.0"
  | some d => sign ++ d.format l

end Decimal
end ChangeImpact
