import ApiDiscovery.Number.Double

/-!
# Decimal numerals

A `Decimal` is a sequence of digits with a power of ten. `Double.ofDecimal` reads one, rounding
once. `shortest` writes a magnitude with the fewest digits that read back as it, among those the
ones nearest to it; `ofDecimal_shortest` says that they do read back. `Layout` holds the decisions
of a format: where positional notation ends and how an exponent is spelled.
-/

namespace ApiDiscovery.Number

/-- The number `digits * 10 ^ exponent`. -/
structure Decimal where
  digits : Nat
  exponent : Int
deriving DecidableEq, Repr

def digitCount (n : Nat) : Nat := (Nat.toDigits 10 n).length

/-- The number with these digits; beyond the format on either side it is infinite or zero, which the
bounds on the exponent decide before any power is formed. -/
def Double.ofDecimal (negative : Bool) (d : Decimal) : Double :=
  if d.digits = 0 then .zero negative
  else
    let top : Int := d.exponent + digitCount d.digits
    if 400 < top then .infinite negative
    else if top < -400 then .zero negative
    else if 0 ≤ d.exponent then .ofRatio negative (d.digits * Nat.pow 10 d.exponent.toNat) 1
    else .ofRatio negative d.digits (Nat.pow 10 (-d.exponent).toNat)

namespace Decimal

/-- The numerator and the denominator of `units * 10 ^ (-p)` counted in ones. -/
def scaled (units : Nat) (p : Int) : Nat × Nat :=
  if 0 ≤ p then (units, unitsPerOne * Nat.pow 10 p.toNat)
  else (units * Nat.pow 10 (-p).toNat, unitsPerOne)

/-- The power of ten of the leading digit of a magnitude that is not zero: the estimate from the
binary length is at most one too small. -/
def leadingPower (units : Nat) : Int :=
  let estimate : Int := Int.fdiv (((Nat.log2 units : Int) - 1074) * 30103) 100000
  let next := scaled units (estimate + 1)
  if next.2 ≤ next.1 then estimate + 1 else estimate

/-- The two neighbours of a magnitude on the grid of `n` digits, the nearer first, on a tie the even
one first. -/
def neighbours (units : Nat) (power : Int) (n : Nat) : List Decimal :=
  let p := power - n + 1
  let (a, b) := scaled units p
  let q := a / b
  let r := a % b
  let low : Decimal := ⟨q, p⟩
  let high : Decimal := ⟨q + 1, p⟩
  if 2 * r < b || (2 * r == b && q % 2 == 0) then [low, high] else [high, low]

def exact (m : Magnitude) : Decimal := ⟨m.units * Nat.pow 5 1074, -1074⟩

/-- The first numeral that reads back, by increasing number of digits; all digits if none does. -/
def shortest (m : Magnitude) : Decimal :=
  if m.units = 0 then ⟨0, 0⟩
  else
    let power := leadingPower m.units
    let found := (List.range 17).findSome? fun i =>
      (neighbours m.units power (i + 1)).find? fun d =>
        Double.ofDecimal false d == .finite false m
    found.getD (exact m)

/-- The digits without trailing zeros, and the place of the point from the left end. -/
def split (d : Decimal) : List Char × Int :=
  let ds := Nat.toDigits 10 d.digits
  let kept := (ds.reverse.dropWhile (· == '0')).reverse
  (if kept.isEmpty then ['0'] else kept, d.exponent + ds.length)

end Decimal

/-- How a format spells numbers: the least and the greatest place of the point that are written
positionally, the least number of digits of an exponent, and the texts of the special numbers. -/
structure Layout where
  leastPoint : Int
  greatestPoint : Int
  exponentWidth : Nat
  infinity : String
  nan : String

namespace Layout

/-- Positional notation: a point among the digits, with at least one digit on either side. -/
def positional (ds : List Char) (point : Int) : List Char :=
  if point ≤ 0 then '0' :: '.' :: (List.replicate (-point).toNat '0' ++ ds)
  else
    let n := point.toNat
    if ds.length ≤ n then ds ++ List.replicate (n - ds.length) '0' ++ ['.', '0']
    else ds.take n ++ '.' :: ds.drop n

def scientific (l : Layout) (ds : List Char) (point : Int) : List Char :=
  let e := point - 1
  let exp := Nat.toDigits 10 e.natAbs
  let mantissa :=
    match ds with
    | [] => ['0']
    | [d] => [d]
    | d :: rest => d :: '.' :: rest
  mantissa ++ 'e' :: (if e < 0 then '-' else '+') ::
    (List.replicate (l.exponentWidth - exp.length) '0' ++ exp)

def magnitude (l : Layout) (m : Magnitude) : List Char :=
  let (ds, point) := (Decimal.shortest m).split
  let point := if m.units = 0 then 1 else point
  if l.leastPoint ≤ point && point ≤ l.greatestPoint then positional ds point
  else l.scientific ds point

def render (l : Layout) : Double → String
  | .finite neg m =>
      let body := String.ofList (l.magnitude m)
      if neg then "-" ++ body else body
  | .infinite neg => if neg then "-" ++ l.infinity else l.infinity
  | .nan => l.nan

end Layout

end ApiDiscovery.Number
