import FixtureCheck.Number.Shortest
import Mathlib.Algebra.Order.Field.Power
import Mathlib.Data.Rat.Cast.Order
import Mathlib.Tactic.FieldSimp
import Mathlib.Tactic.Linarith
import Mathlib.Tactic.NormNum
import Mathlib.Tactic.Positivity
import Mathlib.Tactic.Ring

/-!
# Rounding ratios

- `roundDiv` gives the nearest number, the even one of two (`roundDiv_of_isNearest`);
- `ofRatio` scales a ratio by the one power of two that leaves a significand of 53 bits, or by the least power
  (`exists_exponent`), so that its values are kept in one form (`isCanonical_ofRatio`);
- every number in the interval around a value is rounded to it (`ofRatio_of_covers`).
-/

namespace FixtureCheck

@[simp] theorem twoPow_cast (n : Nat) : ((twoPow n : Nat) : ℚ) = 2 ^ n := by
  simp [twoPow]

@[simp] theorem tenPow_cast (n : Nat) : ((tenPow n : Nat) : ℚ) = 10 ^ n := by
  simp [tenPow]

theorem twoPow_pos (n : Nat) : 0 < twoPow n := Nat.pow_pos Nat.two_pos

theorem tenPow_pos (n : Nat) : 0 < tenPow n := Nat.pow_pos (by decide)

namespace Binary64

variable {num den m q : Nat} {e : Int} {x : ℚ} {negative : Bool}

/-! ## Nearest numbers -/

theorem roundDiv_eq (hd : 0 < den)
    (hlow : 2 * q * den < 2 * num + den ∨ 2 * q * den = 2 * num + den ∧ q % 2 = 0)
    (hhigh : 2 * num < (2 * q + 1) * den ∨ 2 * num = (2 * q + 1) * den ∧ q % 2 = 0) : roundDiv num den = q := by
  have hdiv := Nat.div_add_mod num den
  have hmod := Nat.mod_lt num hd
  unfold roundDiv
  generalize num / den = below at *
  generalize num % den = rest at *
  have hle : below ≤ q := by
    by_contra hlt
    have : (q + 1) * den ≤ below * den := Nat.mul_le_mul_right _ (by omega)
    rcases hhigh with h | ⟨h, -⟩ <;> nlinarith
  have hge : q ≤ below + 1 := by
    by_contra hlt
    have : (below + 2) * den ≤ q * den := Nat.mul_le_mul_right _ (by omega)
    rcases hlow with h | ⟨h, -⟩ <;> nlinarith
  obtain rfl | rfl : q = below ∨ q = below + 1 := by omega
  · have hrest : 2 * rest ≤ den := by rcases hhigh with h | ⟨h, -⟩ <;> nlinarith
    rcases Nat.lt_or_eq_of_le hrest with h | h
    · simp [h]
    · have heven : q % 2 = 0 := by
        rcases hhigh with h' | ⟨-, h'⟩
        · nlinarith
        · exact h'
      simp [h, heven]
  · have hrest : den ≤ 2 * rest := by rcases hlow with h | ⟨h, -⟩ <;> nlinarith
    rcases Nat.lt_or_eq_of_le hrest with h | h
    · simp [h, Nat.not_lt.2 h.le]
    · have heven : (below + 1) % 2 = 0 := by
        rcases hlow with h' | ⟨-, h'⟩
        · nlinarith
        · exact h'
      simp [← h]
      omega

/-- A rounded ratio is at most one half away. -/
theorem roundDiv_bounds (num : Nat) (hd : 0 < den) :
    (roundDiv num den : ℚ) ≤ num / den + 1 / 2 ∧ (num : ℚ) / den ≤ roundDiv num den + 1 / 2 := by
  have hd' : (0 : ℚ) < den := by exact_mod_cast hd
  have hround : 2 * roundDiv num den * den ≤ 2 * num + den ∧ 2 * num ≤ (2 * roundDiv num den + 1) * den := by
    have hdiv := Nat.div_add_mod num den
    have hmod := Nat.mod_lt num hd
    unfold roundDiv
    generalize num / den = below at *
    generalize num % den = rest at *
    dsimp only
    split_ifs <;> constructor <;> nlinarith
  generalize roundDiv num den = q at *
  obtain ⟨hlow, hhigh⟩ := hround
  have hlow' : (2 : ℚ) * q * den ≤ 2 * num + den := by exact_mod_cast hlow
  have hhigh' : (2 : ℚ) * num ≤ (2 * q + 1) * den := by exact_mod_cast hhigh
  constructor
  · rw [div_add' _ _ _ hd'.ne', le_div_iff₀ hd']
    linarith
  · rw [div_le_iff₀ hd']
    linarith

/-- Is a number the nearest one, and the even one of two? -/
def IsNearest (x : ℚ) (q : Nat) : Prop :=
  (q - 1 / 2 < x ∨ x = q - 1 / 2 ∧ q % 2 = 0) ∧ (x < q + 1 / 2 ∨ x = q + 1 / 2 ∧ q % 2 = 0)

theorem roundDiv_of_isNearest (hd : 0 < den) (h : IsNearest ((num : ℚ) / den) q) : roundDiv num den = q := by
  have hd' : (0 : ℚ) < den := by exact_mod_cast hd
  have hnum : (num : ℚ) = num / den * den := by field_simp
  obtain ⟨hlow, hhigh⟩ := h
  generalize (num : ℚ) / den = x at *
  refine roundDiv_eq hd ?_ ?_
  · rw [← Nat.cast_lt (α := ℚ), ← Nat.cast_inj (R := ℚ)]
    push_cast
    rw [hnum]
    rcases hlow with h | ⟨rfl, h⟩
    · left
      nlinarith
    · exact .inr ⟨by ring, h⟩
  · rw [← Nat.cast_lt (α := ℚ), ← Nat.cast_inj (R := ℚ)]
    push_cast
    rw [hnum]
    rcases hhigh with h | ⟨rfl, h⟩
    · left
      nlinarith
    · exact .inr ⟨by ring, h⟩

/-! ## The exponent of a ratio -/

theorem scale_pos (num : Nat) (hd : 0 < den) (e : Int) : 0 < (scale num den e).2 := by
  unfold scale
  split
  · exact Nat.mul_pos hd (twoPow_pos _)
  · exact hd

theorem scale_div (num den : Nat) (e : Int) :
    ((scale num den e).1 : ℚ) / (scale num den e).2 = (num : ℚ) / den / 2 ^ e := by
  unfold scale
  split
  next he =>
    obtain ⟨n, rfl⟩ := Int.eq_ofNat_of_zero_le he
    simp [div_div]
  next he =>
    obtain ⟨n, hn⟩ := Int.eq_ofNat_of_zero_le (by omega : 0 ≤ -e)
    obtain rfl : e = -(n : Int) := by omega
    simp [zpow_neg]
    ring

/-- A rounded significand with its exponent, where a significand of one bit more makes the exponent one more. -/
def carried (negative : Bool) (q : Nat) (e : Int) : Binary64 :=
  if q = twoPow 53 then if e + 1 > maxExponent then infinite negative else finite negative (twoPow 52) (e + 1)
  else if e > maxExponent then infinite negative else finite negative q e

theorem log2_bounds {n : Nat} (hn : 0 < n) :
    (2 : ℚ) ^ (n.log2 : Int) ≤ n ∧ (n : ℚ) < 2 ^ ((n.log2 : Int) + 1) := by
  have hlow : 2 ^ n.log2 ≤ n := Nat.log2_self_le hn.ne'
  have hhigh : n < 2 ^ (n.log2 + 1) := Nat.lt_log2_self
  constructor
  · exact_mod_cast hlow
  · exact_mod_cast hhigh

theorem lt_twoPow_iff (num : Nat) (hd : 0 < den) : num / den < twoPow 52 ↔ (num : ℚ) / den < 2 ^ (52 : Int) := by
  have hd' : (0 : ℚ) < den := by exact_mod_cast hd
  rw [Nat.div_lt_iff_lt_mul hd, div_lt_iff₀ hd', ← Nat.cast_lt (α := ℚ)]
  simp

/-- The difference of the logarithms is the exponent, or one too large. -/
theorem guess_bounds (hn : 0 < num) (hd : 0 < den) {guess : Int} (hguess : guess = (num.log2 : Int) - den.log2 - 52) :
    (2 : ℚ) ^ (51 : Int) < num / den / 2 ^ guess ∧ (num : ℚ) / den / 2 ^ guess < 2 ^ (53 : Int) := by
  obtain ⟨hnum, hnum'⟩ := log2_bounds hn
  obtain ⟨hden, hden'⟩ := log2_bounds hd
  have hd' : (0 : ℚ) < den := by exact_mod_cast hd
  constructor
  · rw [lt_div_iff₀ (by positivity), lt_div_iff₀ hd']
    calc (2 : ℚ) ^ (51 : Int) * 2 ^ guess * den < 2 ^ (51 : Int) * 2 ^ guess * 2 ^ ((den.log2 : Int) + 1) := by gcongr
      _ = 2 ^ (num.log2 : Int) := by
        rw [← zpow_add₀ two_ne_zero, ← zpow_add₀ two_ne_zero]
        congr 1
        omega
      _ ≤ num := hnum
  · rw [div_lt_iff₀ (by positivity), div_lt_iff₀ hd']
    calc (num : ℚ) < 2 ^ ((num.log2 : Int) + 1) := hnum'
      _ = 2 ^ (53 : Int) * 2 ^ guess * 2 ^ (den.log2 : Int) := by
        rw [← zpow_add₀ two_ne_zero, ← zpow_add₀ two_ne_zero]
        congr 1
        omega
      _ ≤ 2 ^ (53 : Int) * 2 ^ guess * den := by gcongr

/-- The exponent with which a ratio has a significand of 53 bits is the one that it is rounded with, unless it is below
the least one. -/
theorem exists_exponent (negative : Bool) (hn : 0 < num) (hd : 0 < den) : ∃ e : Int,
    (2 : ℚ) ^ (52 : Int) ≤ num / den / 2 ^ e ∧ (num : ℚ) / den / 2 ^ e < 2 ^ (53 : Int) ∧
    ofRatio negative num den = carried negative (roundDiv (scale num den (max minExponent e)).1
      (scale num den (max minExponent e)).2) (max minExponent e) := by
  obtain ⟨guess, hguess⟩ : ∃ guess : Int, guess = (num.log2 : Int) - den.log2 - 52 := ⟨_, rfl⟩
  obtain ⟨hlow, hhigh⟩ := guess_bounds hn hd hguess
  have hround : ∀ e, (if (scale num den guess).1 / (scale num den guess).2 < twoPow 52 then guess - 1 else guess) = e →
      ofRatio negative num den = carried negative (roundDiv (scale num den (max minExponent e)).1
        (scale num den (max minExponent e)).2) (max minExponent e) := by
    intro e he
    unfold ofRatio carried
    rw [if_neg hn.ne']
    simp only [← hguess, he]
    split <;> rfl
  have hiff := lt_twoPow_iff (scale num den guess).1 (scale_pos num hd guess)
  rw [scale_div] at hiff
  by_cases h : (num : ℚ) / den / 2 ^ guess < 2 ^ (52 : Int)
  · refine ⟨guess - 1, ?_, ?_, hround _ (if_pos (hiff.2 h))⟩
    · rw [zpow_sub_one₀ two_ne_zero, div_mul_eq_div_div, div_inv_eq_mul]
      have : (2 : ℚ) ^ (52 : Int) = 2 ^ (51 : Int) * 2 := by norm_num
      rw [this]
      gcongr
    · rw [zpow_sub_one₀ two_ne_zero, div_mul_eq_div_div, div_inv_eq_mul]
      have : (2 : ℚ) ^ (53 : Int) = 2 ^ (52 : Int) * 2 := by norm_num
      rw [this]
      gcongr
  · exact ⟨guess, not_lt.1 h, hhigh, hround _ (if_neg fun hlt => h (hiff.1 hlt))⟩

/-! ## One form for each value -/

/-- **Is a value kept in its one form?** -/
def IsCanonical : Binary64 → Prop
  | finite _ m e => m < twoPow 53 ∧ minExponent ≤ e ∧ e ≤ maxExponent ∧ (twoPow 52 ≤ m ∨ e = minExponent)
  | _ => True

theorem isCanonical_zero : IsCanonical (zero negative) :=
  ⟨twoPow_pos 53, le_refl _, by decide, .inr rfl⟩

theorem isCanonical_carried (hq : q ≤ twoPow 53) (hmin : minExponent ≤ e)
    (hnormal : twoPow 52 ≤ q ∨ e = minExponent) : IsCanonical (carried negative q e) := by
  unfold carried
  split_ifs with hcarry hmax hmax
  · trivial
  · exact ⟨by decide, by omega, by omega, .inl (le_refl _)⟩
  · trivial
  · exact ⟨by omega, hmin, by omega, hnormal⟩

theorem isCanonical_ofRatio (hd : 0 < den) : IsCanonical (ofRatio negative num den) := by
  rcases Nat.eq_zero_or_pos num with rfl | hn
  · exact isCanonical_zero
  obtain ⟨e', hlow, hhigh, heq⟩ := exists_exponent negative hn hd
  rw [heq]
  obtain ⟨e, he⟩ : ∃ e, e = max minExponent e' := ⟨_, rfl⟩
  rw [← he]
  obtain ⟨hq, hq'⟩ := roundDiv_bounds (scale num den e).1 (scale_pos _ hd e)
  rw [scale_div] at hq hq'
  generalize roundDiv (scale num den e).1 (scale num den e).2 = q at *
  have hle : (num : ℚ) / den / 2 ^ e < 2 ^ (53 : Int) := by
    refine lt_of_le_of_lt ?_ hhigh
    have : (2 : ℚ) ^ e' ≤ 2 ^ e := zpow_le_zpow_right₀ one_le_two (by omega)
    gcongr
  refine isCanonical_carried ?_ (by omega) ?_
  · have : (q : ℚ) < 9007199254740992 + 1 := by
      norm_num at hle
      linarith
    have : q < 9007199254740992 + 1 := by exact_mod_cast this
    exact Nat.lt_succ_iff.1 this
  · by_cases h : e = minExponent
    · exact .inr h
    · left
      obtain rfl : e = e' := by omega
      have : (4503599627370496 : ℚ) < q + 1 := by
        norm_num at hlow
        linarith
      have : 4503599627370496 < q + 1 := by exact_mod_cast this
      exact Nat.lt_succ_iff.1 this

/-! ## Numbers around a value -/

/-- **Does a number round to a positive value?** It lies in the interval around the value. -/
def Covers (m : Nat) (e : Int) (x : ℚ) : Prop :=
  (((interval m e).1 : ℚ) * 2 ^ (e - 2) < x ∨ x = (interval m e).1 * 2 ^ (e - 2) ∧ m % 2 = 0) ∧
  (x < (interval m e).2 * 2 ^ (e - 2) ∨ x = (interval m e).2 * 2 ^ (e - 2) ∧ m % 2 = 0)

theorem interval_bounds (hm : 0 < m) : 4 * (m : ℚ) ≤ (interval m e).1 + 2 ∧
    ((interval m e).1 : ℚ) + 1 ≤ 4 * m ∧ ((interval m e).2 : ℚ) = 4 * m + 2 := by
  have h : 4 * m ≤ (interval m e).1 + 2 ∧ (interval m e).1 + 1 ≤ 4 * m ∧ (interval m e).2 = 4 * m + 2 := by
    unfold interval
    dsimp only
    split <;> omega
  exact_mod_cast h

/-- A unit has four quarters. -/
theorem zpow_eq_four_mul (e : Int) : (2 : ℚ) ^ e = 4 * 2 ^ (e - 2) := by
  rw [zpow_sub₀ two_ne_zero]
  norm_num
  ring

/-- The interval around a value reaches at most half a unit far. -/
theorem Covers.bounds (hm : 0 < m) (h : Covers m e x) :
    ((m : ℚ) - 1 / 2) * 2 ^ e ≤ x ∧ x ≤ (m + 1 / 2) * 2 ^ e := by
  obtain ⟨h1, -, h2⟩ := interval_bounds (e := e) hm
  have hpos : (0 : ℚ) < 2 ^ (e - 2) := by positivity
  obtain ⟨hlow, hhigh⟩ := h
  rw [zpow_eq_four_mul]
  constructor
  · rcases hlow with h | ⟨rfl, -⟩ <;> nlinarith
  · rw [h2] at hhigh
    rcases hhigh with h | ⟨rfl, -⟩ <;> nlinarith

theorem Covers.isNearest (hm : 0 < m) (h : Covers m e x) : IsNearest (x / 2 ^ e) m := by
  obtain ⟨hx, hx'⟩ := h.bounds hm
  obtain ⟨h1, -, h2⟩ := interval_bounds (e := e) hm
  have hpos : (0 : ℚ) < 2 ^ (e - 2) := by positivity
  obtain ⟨hlow, hhigh⟩ := h
  rw [h2] at hhigh
  rw [zpow_eq_four_mul] at hx hx' ⊢
  constructor
  · rw [lt_div_iff₀ (by positivity), div_eq_iff (by positivity)]
    refine hx.lt_or_eq.imp_right fun heq => ⟨heq.symm, ?_⟩
    rcases hlow with h | ⟨-, heven⟩
    · nlinarith
    · exact heven
  · rw [div_lt_iff₀ (by positivity), div_eq_iff (by positivity)]
    refine hx'.lt_or_eq.imp_right fun heq => ⟨heq, ?_⟩
    rcases hhigh with h | ⟨-, heven⟩
    · nlinarith
    · exact heven

/-- A number below a power of two that rounds to it is rounded with the exponent below, and carried. -/
theorem isNearest_of_covers_below (hmin : minExponent < e) (h : Covers (twoPow 52) e x)
    (hlt : x < 2 ^ (52 : Int) * 2 ^ e) : IsNearest (x / 2 ^ (e - 1)) (twoPow 53) := by
  have hlow := h.1
  have hpos : (0 : ℚ) < 2 ^ (e - 2) := by positivity
  have hhalf : (2 : ℚ) ^ (e - 1) = 2 * 2 ^ (e - 2) := by
    rw [show e - 1 = e - 2 + 1 by omega, zpow_add_one₀ two_ne_zero]
    ring
  have hend : (interval (twoPow 52) e).1 = 18014398509481983 := by simp [interval, hmin, twoPow]
  rw [hend] at hlow
  rw [zpow_eq_four_mul e] at hlt
  norm_num at hlow hlt
  rw [hhalf]
  constructor
  · rw [lt_div_iff₀ (by positivity), div_eq_iff (by positivity)]
    norm_num [twoPow]
    rcases hlow with h | ⟨rfl, -⟩
    · left
      linarith
    · right
      ring
  · left
    rw [div_lt_iff₀ (by positivity)]
    norm_num [twoPow]
    linarith

theorem carried_eq (hm : m < twoPow 53) (he : e ≤ maxExponent) : carried negative m e = finite negative m e := by
  rw [carried, if_neg hm.ne, if_neg (by omega)]

theorem lt_of_zpow_lt {e e' : Int} (h : (2 : ℚ) ^ e < 2 ^ e') : e < e' := (zpow_lt_zpow_iff_right₀ one_lt_two).1 h

/-- The exponent of a number in the interval around a value is that of the value, or the number lies below the power of
two that the value is. -/
theorem cases_of_covers {e' : Int} (hm : 0 < m) (hc : IsCanonical (finite negative m e)) (h : Covers m e x)
    (hlow : 2 ^ (52 : Int) * 2 ^ e' ≤ x) (hhigh : x < 2 ^ (53 : Int) * 2 ^ e') :
    max minExponent e' = e ∨ (m = twoPow 52 ∧ e' = e - 1 ∧ minExponent < e) := by
  obtain ⟨hlt, hmin, -, hnormal⟩ := hc
  obtain ⟨hx, hx'⟩ := h.bounds hm
  have hm' : (m : ℚ) + 1 ≤ 2 ^ (53 : Int) := by
    have : (m : ℚ) + 1 ≤ 9007199254740992 := by exact_mod_cast (hlt : m + 1 ≤ 9007199254740992)
    norm_num
    exact this
  have hpos : (0 : ℚ) < 2 ^ e := by positivity
  have hle : e' ≤ e := by
    have : (2 : ℚ) ^ e' < 2 ^ (e + 1) := by
      rw [zpow_add_one₀ two_ne_zero]
      norm_num at hlow hm'
      nlinarith
    have := lt_of_zpow_lt this
    omega
  by_cases he : e = minExponent
  · exact .inl (by omega)
  rcases hle.lt_or_eq with hlt' | rfl
  · have hbelow : (2 : ℚ) ^ e' ≤ 2 ^ (e - 1) := zpow_le_zpow_right₀ one_le_two (by omega)
    rw [zpow_sub_one₀ two_ne_zero] at hbelow
    have hm52 : m = twoPow 52 := by
      have hlt52 : ((m : ℚ) - 1 / 2) * 2 ^ e < 2 ^ (52 : Int) * 2 ^ e := by
        norm_num at hhigh ⊢
        linarith
      have hle : (m : ℚ) < 2 ^ (52 : Int) + 1 := by
        linarith [lt_of_mul_lt_mul_right hlt52 hpos.le]
      have : m < 4503599627370496 + 1 := by exact_mod_cast hle
      rcases hnormal with h | h
      · exact Nat.le_antisymm (by show m ≤ 4503599627370496; omega) h
      · exact absurd h he
    subst hm52
    have : (2 : ℚ) ^ (e - 2) < 2 ^ e' := by
      rw [zpow_sub₀ two_ne_zero]
      norm_num [twoPow] at hx hhigh ⊢
      nlinarith
    have := lt_of_zpow_lt this
    exact .inr ⟨rfl, by omega, by omega⟩
  · exact .inl (max_eq_right hmin)

/-- **Every number in the interval around a value is rounded to it.** -/
theorem ofRatio_of_covers (hn : 0 < num) (hd : 0 < den) (hm : 0 < m) (hc : IsCanonical (finite negative m e))
    (h : Covers m e (num / den)) : ofRatio negative num den = finite negative m e := by
  obtain ⟨e', hlow, hhigh, heq⟩ := exists_exponent negative hn hd
  rw [le_div_iff₀ (by positivity)] at hlow
  rw [div_lt_iff₀ (by positivity)] at hhigh
  rcases cases_of_covers hm hc h hlow hhigh with hmax | ⟨rfl, rfl, hmin⟩
  · rw [heq, hmax, roundDiv_of_isNearest (scale_pos _ hd e), carried_eq hc.1 hc.2.2.1]
    rw [scale_div]
    exact h.isNearest hm
  · have hmax : max minExponent (e - 1) = e - 1 := max_eq_right (by omega)
    obtain ⟨-, -, hle, -⟩ := hc
    rw [heq, hmax, roundDiv_of_isNearest (scale_pos _ hd _), carried, if_pos rfl, if_neg (by omega)]
    · congr 1
      omega
    · rw [scale_div]
      refine isNearest_of_covers_below hmin h ?_
      rw [zpow_sub_one₀ two_ne_zero] at hhigh
      norm_num at hhigh ⊢
      linarith

end Binary64

end FixtureCheck
