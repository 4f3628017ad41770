import FixtureCheck.Number.Power

/-!
# Binary64 numbers, exactly

`Binary64` is the set of double-precision values: a sign and `significand · 2 ^ exponent`, the infinities and one NaN.
Finite values are kept in one form, with the least exponent that keeps the significand below `2 ^ 53`; equality of
values other than zeros and NaN is then equality of terms. `ofRatio` rounds a ratio to the nearest value, a tie going
to the even significand, and `ofDecimal` reads a decimal number.
-/

namespace FixtureCheck

/-- A double-precision number. -/
inductive Binary64 where
  | nan
  | infinite (negative : Bool)
  | finite (negative : Bool) (significand : Nat) (exponent : Int)
  deriving DecidableEq, Repr, Inhabited

namespace Binary64

/-- The least exponent of a finite value. -/
def minExponent : Int := -1074

/-- The greatest exponent of a finite value. -/
def maxExponent : Int := 971

/-- `num / den` to the nearest natural number, a tie going to the even one. -/
def roundDiv (num den : Nat) : Nat :=
  let q := num / den
  let r := num % den
  if 2 * r < den then q
  else if 2 * r > den then q + 1
  else if q % 2 == 0 then q else q + 1

/-- Zero, with a sign. -/
def zero (negative : Bool) : Binary64 := finite negative 0 minExponent

/-- The numerator and denominator of `num / (den · 2 ^ e)`. -/
def scale (num den : Nat) (e : Int) : Nat × Nat :=
  if 0 ≤ e then (num, den * twoPow e.toNat) else (num * twoPow (-e).toNat, den)

/-- The value nearest to `num / den`. -/
def ofRatio (negative : Bool) (num den : Nat) : Binary64 :=
  if num = 0 then zero negative
  else
    let guess : Int := (num.log2 : Int) - den.log2 - 52
    let (n, d) := scale num den guess
    let e := max minExponent (if n / d < twoPow 52 then guess - 1 else guess)
    let (n, d) := scale num den e
    let q := roundDiv n d
    let (q, e) := if q = twoPow 53 then (twoPow 52, e + 1) else (q, e)
    if e > maxExponent then infinite negative else finite negative q e

/-- The number of decimal digits of `n`. -/
def decimalLength (n : Nat) : Nat := (Nat.toDigits 10 n).length

/-- The value nearest to `digits · 10 ^ exponent`; exponents far out of range are not expanded. -/
def ofDecimal (negative : Bool) (digits : Nat) (exponent : Int) : Binary64 :=
  let magnitude := exponent + decimalLength digits
  if digits = 0 || magnitude < -400 then zero negative
  else if magnitude > 400 then infinite negative
  else if 0 ≤ exponent then ofRatio negative (digits * tenPow exponent.toNat) 1
  else ofRatio negative digits (tenPow (-exponent).toNat)

/-- The value nearest to an integer; `none` when it lies beyond the finite values. -/
def ofInt? (n : Int) : Option Binary64 :=
  match ofRatio (n < 0) n.natAbs 1 with
  | infinite _ => none
  | x => some x

/-- Is the value neither infinite nor NaN? -/
def isFinite : Binary64 → Bool
  | finite .. => true
  | _ => false

/-- The integer a finite value equals, if it does. -/
def toInt? : Binary64 → Option Int
  | finite negative m e =>
    let magnitude : Option Nat :=
      if 0 ≤ e then some (m * twoPow e.toNat)
      else if m % twoPow (-e).toNat = 0 then some (m / twoPow (-e).toNat)
      else none
    magnitude.map fun n => if negative then -(n : Int) else n
  | _ => none

end Binary64

end FixtureCheck
