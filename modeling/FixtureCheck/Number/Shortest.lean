import FixtureCheck.Number.Binary64

/-!
# Shortest decimals

`Binary64.shortest` finds, for a finite value other than zero, the decimal `digits · 10 ^ exponent` with the fewest
digits among those that round to the value, and of several the nearest. The decimals that round to the value fill an
interval around it, ends included when its significand is even; a decimal grid has a point in the interval only if one
of the value's two neighbours on the grid lies in it, so the grids are tried from the coarsest on.

`DecimalLayout` says how such a decimal is written; `Binary64.text` writes a value with one.
-/

namespace FixtureCheck

/-- A choice of texts for numbers: the decimal point's positions that are written out, and the special values. -/
structure DecimalLayout where
  /-- The least position of the decimal point, counted from the first digit, that is written without an exponent. -/
  minPoint : Int
  /-- The greatest such position. -/
  maxPoint : Int
  nan : String
  infinity : String

namespace Binary64

/-- The interval that rounds to `m · 2 ^ e`, as doubled quarter steps: its ends are `low · 2 ^ (e - 2)` and
`high · 2 ^ (e - 2)`. Below a power of two the step is half as wide. -/
def interval (m : Nat) (e : Int) : Nat × Nat :=
  (if m = twoPow 52 && e > minExponent then 4 * m - 1 else 4 * m - 2, 4 * m + 2)

/-- Compares `a · 10 ^ k` with `b · 2 ^ j`. -/
def compareScaled (a : Nat) (k : Int) (b : Nat) (j : Int) : Ordering :=
  let left := a * tenPow k.toNat * twoPow (-j).toNat
  let right := b * twoPow j.toNat * tenPow (-k).toNat
  compare left right

/-- Does `d · 10 ^ k` round to `m · 2 ^ e`? -/
def roundsTo (m : Nat) (e : Int) (d : Nat) (k : Int) : Bool :=
  let (low, high) := interval m e
  let even := m % 2 == 0
  let above := compareScaled d k low (e - 2)
  let below := compareScaled d k high (e - 2)
  (above == .gt || (even && above == .eq)) && (below == .lt || (even && below == .eq))

/-- The largest multiple of `10 ^ k` that is at most `m · 2 ^ e`, counted in units of `10 ^ k`. -/
def gridFloor (m : Nat) (e k : Int) : Nat :=
  (m * twoPow e.toNat * tenPow (-k).toNat) / (twoPow (-e).toNat * tenPow k.toNat)

/-- The point of the grid `10 ^ k` nearest to `m · 2 ^ e` among those that round to it; a tie goes to the even one. -/
def onGrid (m : Nat) (e k : Int) : Option Nat :=
  let lower := gridFloor m e k
  match roundsTo m e lower k, roundsTo m e (lower + 1) k with
  | true, false => some lower
  | false, true => some (lower + 1)
  | false, false => none
  | true, true =>
    -- the midpoint of the two is (2 · lower + 1) · 10 ^ k / 2
    match compareScaled (2 * lower + 1) k (2 * m) e with
    | .gt => some lower
    | .lt => some (lower + 1)
    | .eq => some (if lower % 2 == 0 then lower else lower + 1)

/-- Tries the grids `10 ^ k`, `10 ^ (k - 1)`, …, at most `n` of them. -/
def firstGrid (m : Nat) (e : Int) : Nat → Int → Nat × Int
  | 0, k => (gridFloor m e k, k)
  | n + 1, k =>
    match onGrid m e k with
    | some d => if d = 0 then firstGrid m e n (k - 1) else (d, k)
    | none => firstGrid m e n (k - 1)

/-- Drops trailing zeros of `d`, raising the exponent instead. -/
def dropZeros (d : Nat) (k : Int) : Nat × Int :=
  if h : d ≠ 0 ∧ d % 10 = 0 then dropZeros (d / 10) (k + 1) else (d, k)
termination_by d
decreasing_by omega

/-- The shortest decimal that rounds to `m · 2 ^ e`, for a positive `m`. -/
def shortest (m : Nat) (e : Int) : Nat × Int :=
  -- m · 2 ^ e lies below 10 ^ top
  let top : Int := ((m.log2 : Int) + 1 + e) * 30103 / 100000 + 2
  let (d, k) := firstGrid m e 25 top
  dropZeros d k

/-- The digits of a decimal with the point at `point`, counted from the first digit. -/
def positional (digits : List Char) (point : Int) : List Char :=
  if point ≤ 0 then '0' :: '.' :: (List.replicate (-point).toNat '0' ++ digits)
  else
    let p := point.toNat
    let whole := digits.take p ++ List.replicate (p - digits.length) '0'
    match digits.drop p with
    | [] => whole ++ ['.', '0']
    | fraction => whole ++ '.' :: fraction

/-- The digits of a decimal with one digit before the point and an exponent of at least two digits. -/
def scientific (digits : List Char) (point : Int) : List Char :=
  let exponent := point - 1
  let magnitude := Nat.toDigits 10 exponent.natAbs
  let mantissa :=
    match digits with
    | d :: fraction@(_ :: _) => d :: '.' :: fraction
    | digits => digits
  mantissa ++ 'e' :: (if exponent < 0 then '-' else '+') :: (List.replicate (2 - magnitude.length) '0' ++ magnitude)

/-- The text of a value. -/
def text (layout : DecimalLayout) : Binary64 → String
  | nan => layout.nan
  | infinite negative => (if negative then "-" else "") ++ layout.infinity
  | finite negative m e =>
    let unsigned :=
      if m = 0 then ['0', '.', '0']
      else
        let (d, k) := shortest m e
        let digits := Nat.toDigits 10 d
        let point := k + digits.length
        if layout.minPoint ≤ point && point ≤ layout.maxPoint then positional digits point
        else scientific digits point
    String.ofList (if negative then '-' :: unsigned else unsigned)

end Binary64

end FixtureCheck
