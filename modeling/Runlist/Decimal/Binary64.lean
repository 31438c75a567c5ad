/-!
# Binary floating-point numbers by their bits

A number of the 64-bit binary format is kept as its bit pattern, so that equality is decidable
and every operation is exact arithmetic on natural numbers followed by one rounding.

* `Binary64.ofRatio`: the nearest number to a quotient of naturals, a tie going to the even
  significand.
* `Binary64.ofDecimal`: the nearest number to `digits · 10 ^ exponent`.
* `Binary64.scaled`: the significand, rounded, times or divided by a rounded power of ten.
* `Binary64.same`, `Binary64.less`: comparison by value.
-/

namespace Runlist

/-- A number of the 64-bit binary floating-point format. -/
structure Binary64 where
  bits : UInt64
deriving DecidableEq, Inhabited, Repr

namespace Binary64

/-- The sign bit is set. -/
def negative (x : Binary64) : Bool := Nat.pow 2 63 ≤ x.bits.toNat

/-- The bits without the sign. -/
def magnitude (x : Binary64) : Nat := x.bits.toNat % Nat.pow 2 63

/-- The exponent field. -/
def exponentField (x : Binary64) : Nat := x.magnitude / Nat.pow 2 52

/-- The trailing bits of the significand. -/
def fraction (x : Binary64) : Nat := x.magnitude % Nat.pow 2 52

/-- Neither infinite nor a NaN. -/
def isFinite (x : Binary64) : Bool := x.exponentField < 2047

/-- Finite, not zero, and with a full significand. -/
def isNormal (x : Binary64) : Bool := 0 < x.exponentField && x.exponentField < 2047

/-- Zero of either sign. -/
def isZero (x : Binary64) : Bool := x.magnitude == 0

/-- The integer significand `m` of a finite number `m · 2 ^ q`. -/
def significand (x : Binary64) : Nat :=
  if x.exponentField = 0 then x.fraction else Nat.pow 2 52 + x.fraction

/-- The exponent `q` of a finite number `m · 2 ^ q`. -/
def scale (x : Binary64) : Int :=
  if x.exponentField = 0 then -1074 else (x.exponentField : Int) - 1075

/-- Numerator and denominator of the magnitude of a finite number. -/
def ratio (x : Binary64) : Nat × Nat :=
  if 0 ≤ x.scale then (x.significand * Nat.pow 2 x.scale.toNat, 1)
  else (x.significand, Nat.pow 2 (-x.scale).toNat)

/-- The number with the given sign and the other bits. -/
def ofMagnitude (negative : Bool) (magnitude : Nat) : Binary64 :=
  ⟨UInt64.ofNat (magnitude + if negative then Nat.pow 2 63 else 0)⟩

/-- Infinity of a sign. -/
def infinity (negative : Bool) : Binary64 := ofMagnitude negative (2047 * Nat.pow 2 52)

/-- Zero of a sign. -/
def zero (negative : Bool) : Binary64 := ofMagnitude negative 0

/-- The quotient rounded to the nearest integer, a tie to the even one. -/
def roundDiv (num den : Nat) : Nat :=
  let q := num / den
  let r := num % den
  if 2 * r < den then q else if den < 2 * r then q + 1 else if q % 2 = 0 then q else q + 1

/-- The largest `n` with `2 ^ n ≤ num / den`. -/
def floorLog2 (num den : Nat) : Int :=
  let guess : Int := (Nat.log2 num : Int) - (Nat.log2 den : Int)
  let reached := if 0 ≤ guess then den * Nat.pow 2 guess.toNat ≤ num
    else den ≤ num * Nat.pow 2 (-guess).toNat
  if reached then guess else guess - 1

/-- **The nearest number to a quotient**, a tie going to the even significand; infinite from the
value halfway above the largest finite number on. -/
def ofRatio (negative : Bool) (num den : Nat) : Binary64 :=
  if num = 0 then zero negative else
  let q := max (floorLog2 num den - 52) (-1074)
  let m :=
    if 0 ≤ q then roundDiv num (den * Nat.pow 2 q.toNat)
      else roundDiv (num * Nat.pow 2 (-q).toNat) den
  let magnitude :=
    if m < Nat.pow 2 52 then m else (q + 1075).toNat * Nat.pow 2 52 + (m - Nat.pow 2 52)
  if 2047 * Nat.pow 2 52 ≤ magnitude then infinity negative else ofMagnitude negative magnitude

/-- The nearest number to an integer. -/
def ofInt (i : Int) : Binary64 := ofRatio (i < 0) i.natAbs 1

/-- The number of decimal digits of a positive number, and zero for zero. -/
def digitCount (n : Nat) : Nat := if n = 0 then 0 else (Nat.toDigits 10 n).length

/-- **The nearest number to `digits · 10 ^ exponent`.** Exponents far outside the range are
answered by zero and infinity at once. -/
def ofDecimal (negative : Bool) (digits : Nat) (exponent : Int) : Binary64 :=
  let top := (digitCount digits : Int) + exponent
  if digits = 0 || top < -400 then zero negative
  else if 400 < top then infinity negative
  else if 0 ≤ exponent then ofRatio negative (digits * Nat.pow 10 exponent.toNat) 1
  else ofRatio negative digits (Nat.pow 10 (-exponent).toNat)

/-- The rounded product of two finite numbers. -/
def mul (x y : Binary64) : Binary64 :=
  ofRatio (x.negative != y.negative) (x.ratio.1 * y.ratio.1) (x.ratio.2 * y.ratio.2)

/-- The rounded quotient of two finite numbers, the second not zero. -/
def div (x y : Binary64) : Binary64 :=
  ofRatio (x.negative != y.negative) (x.ratio.1 * y.ratio.2) (x.ratio.2 * y.ratio.1)

/-- The rounded power of ten. -/
def pow10 (n : Nat) : Binary64 := ofDecimal false 1 n

/-- **The significand times a power of ten, each factor rounded first.** Nothing when the value
is too large; a value too small becomes zero. -/
def scaled (negative : Bool) (significand : Nat) (exponent : Int) : Option Binary64 :=
  let f := ofRatio negative significand 1
  if f.isZero then some f
  else if 308 < exponent then none
  else if 0 ≤ exponent then
    let x := f.mul (pow10 exponent.toNat)
    if x.isFinite then some x else none
  else if -308 ≤ exponent then some (f.div (pow10 (-exponent).toNat))
  else if -616 ≤ exponent then some ((f.div (pow10 308)).div (pow10 (-exponent - 308).toNat))
  else some (zero negative)

/-- Equal in value: zeros of both signs are equal. -/
def same (x y : Binary64) : Bool := x.bits == y.bits || (x.isZero && y.isZero)

/-- The signed value on one scale, for comparison of finite numbers. -/
def key (x : Binary64) : Int := if x.negative then -(x.magnitude : Int) else x.magnitude

/-- Less in value, for finite numbers. -/
def less (x y : Binary64) : Bool := x.key < y.key

end Binary64

end Runlist
