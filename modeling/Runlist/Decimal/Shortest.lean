import Runlist.Decimal.Binary64

/-!
# The fewest digits that read back

Every finite number has a set of reals that round to it. The shortest decimal inside this set is
found on the decimal grids of 1, 2, … 17 digits: the first grid one of whose two points around
the number lies in the set wins, and of two such points the nearer.

* `Binary64.shortest`: digits and exponent of that decimal.
* `Binary64.placePoint`: digits with a decimal point among them.
-/

namespace Runlist.Binary64

/-- Four times the number and the two ends of the set of reals that round to it, over one
denominator. -/
structure Neighbourhood where
  low : Nat
  mid : Nat
  high : Nat
  den : Nat
  /-- The ends themselves round to the number. -/
  closed : Bool

/-- The reals that round to a finite number that is not zero. -/
def neighbourhood (x : Binary64) : Neighbourhood :=
  let m := x.significand
  let narrow := x.fraction = 0 && 1 < x.exponentField
  let up := if 0 ≤ x.scale then Nat.pow 2 x.scale.toNat else 1
  let down := if 0 ≤ x.scale then 1 else Nat.pow 2 (-x.scale).toNat
  { low := (4 * m - if narrow then 1 else 2) * up
    mid := 4 * m * up
    high := (4 * m + 2) * up
    den := 4 * down
    closed := m % 2 = 0 }

/-- The largest `n` with `10 ^ n ≤ num / den`, for a positive quotient. -/
def floorLog10 (num den : Nat) : Int :=
  if den ≤ num then (digitCount (num / den) : Int) - 1
  else -(digitCount ((den - 1) / num) : Int)

/-- The point `digits · 10 ^ exponent` lies in the neighbourhood. -/
def Neighbourhood.holds (b : Neighbourhood) (digits : Nat) (exponent : Int) : Bool :=
  let p := if 0 ≤ exponent then digits * Nat.pow 10 exponent.toNat * b.den else digits * b.den
  let s := if 0 ≤ exponent then 1 else Nat.pow 10 (-exponent).toNat
  if b.closed then b.low * s ≤ p && p ≤ b.high * s else b.low * s < p && p < b.high * s

/-- The point below the number on the grid of step `10 ^ exponent`, with the remainder over
the step, as numerator and denominator. -/
def Neighbourhood.below (b : Neighbourhood) (exponent : Int) : Nat × Nat × Nat :=
  let num := if 0 ≤ exponent then b.mid else b.mid * Nat.pow 10 (-exponent).toNat
  let den := if 0 ≤ exponent then b.den * Nat.pow 10 exponent.toNat else b.den
  (num / den, num % den, den)

/-- The best point of the grid of step `10 ^ exponent`, if one lies in the neighbourhood. -/
def Neighbourhood.best? (b : Neighbourhood) (exponent : Int) : Option Nat :=
  let (d, r, s) := b.below exponent
  let lower := b.holds d exponent && d != 0
  let upper := b.holds (d + 1) exponent
  if lower && upper then
    some (if 2 * r < s then d else if s < 2 * r then d + 1 else if d % 2 = 0 then d else d + 1)
  else if lower then some d
  else if upper then some (d + 1)
  else none

/-- Digits without trailing zeros, their number added to the exponent. -/
def stripZeros : Nat → Nat → Int → Nat × Int
  | 0, d, e => (d, e)
  | n + 1, d, e => if d % 10 = 0 && d != 0 then stripZeros n (d / 10) (e + 1) else (d, e)

/-- **The shortest decimal that rounds to a finite number**, nearest to it among those, as
digits and exponent; zero is `0 · 10 ^ 0`. -/
def shortest (x : Binary64) : Nat × Int :=
  if x.isZero then (0, 0) else
  let b := x.neighbourhood
  let top := floorLog10 b.mid b.den
  let grids := (List.range 17).map fun (n : Nat) => top - (n : Int)
  match grids.findSome? fun e => (b.best? e).map fun d => (d, e) with
  | some (d, e) => stripZeros 20 d e
  | none => (x.significand, 0)

/-- A run of zeros. -/
def zeros (n : Nat) : String := String.ofList (List.replicate n '0')

/-- Digits with a decimal point at the place that the exponent asks for; at least one digit
stands on each side. -/
def placePoint (digits : Nat) (exponent : Int) : String :=
  let text := toString digits
  let point := (text.length : Int) + exponent
  if 0 ≤ exponent then text ++ zeros exponent.toNat ++ ".0"
  else if 0 < point then
    String.ofList (text.toList.take point.toNat) ++ "." ++
      String.ofList (text.toList.drop point.toNat)
  else "0." ++ zeros (-point).toNat ++ text

end Runlist.Binary64
