import FixtureCheck.Proofs.Number.Rounding

/-!
# Shortest decimals round to their values

`Binary64.shortest` tries grids of decimals, from the coarsest on.

- A decimal that `onGrid` finds rounds to the value (`roundsTo_of_onGrid`), and it finds one on every grid that is finer
  than half a unit (`isSome_onGrid`), which the last of the grids is (`isSome_finestGrid`);
- so the decimal that is found rounds to the value (`covers_shortest`);
- reading any decimal that rounds to a value gives the value (`ofDecimal_of_covers`).
-/

namespace FixtureCheck.Binary64

variable {m d : Nat} {e k : Int} {negative : Bool}

/-! ## Decimals and grids -/

/-- The parts of a power with an integer as its exponent that are powers with natural numbers. -/
theorem zpow_mul_toNat {b : ℚ} (hb : b ≠ 0) (k : Int) : b ^ k * b ^ (-k).toNat = b ^ k.toNat := by
  rw [← zpow_natCast b (-k).toNat, ← zpow_natCast b k.toNat, ← zpow_add₀ hb]
  congr 1
  omega

theorem compareScaled_eq (a : Nat) (k : Int) (b : Nat) (j : Int) :
    compareScaled a k b j = compare ((a : ℚ) * 10 ^ k) (b * 2 ^ j) := by
  have hc : (0 : ℚ) < 10 ^ (-k).toNat * 2 ^ (-j).toNat := by positivity
  have hleft : ((a * tenPow k.toNat * twoPow (-j).toNat : Nat) : ℚ) =
      a * 10 ^ k * (10 ^ (-k).toNat * 2 ^ (-j).toNat) := by
    push_cast
    rw [tenPow_cast, twoPow_cast, ← zpow_mul_toNat (by norm_num) k]
    ring
  have hright : ((b * twoPow j.toNat * tenPow (-k).toNat : Nat) : ℚ) =
      b * 2 ^ j * (10 ^ (-k).toNat * 2 ^ (-j).toNat) := by
    push_cast
    rw [tenPow_cast, twoPow_cast, ← zpow_mul_toNat (by norm_num) j]
    ring
  unfold compareScaled
  dsimp only
  rcases lt_trichotomy ((a : ℚ) * 10 ^ k) (b * 2 ^ j) with h | h | h
  · rw [compare_lt_iff_lt.2 h, compare_lt_iff_lt, ← Nat.cast_lt (α := ℚ), hleft, hright]
    gcongr
  · rw [compare_eq_iff_eq.2 h, compare_eq_iff_eq, ← Nat.cast_inj (R := ℚ), hleft, hright, h]
  · rw [compare_gt_iff_gt.2 h, compare_gt_iff_gt, ← Nat.cast_lt (α := ℚ), hleft, hright]
    gcongr

theorem roundsTo_iff : roundsTo m e d k = true ↔ Covers m e (d * 10 ^ k) := by
  unfold roundsTo Covers
  simp only [compareScaled_eq, Bool.and_eq_true, Bool.or_eq_true, beq_iff_eq, compare_gt_iff_gt, compare_lt_iff_lt,
    compare_eq_iff_eq]
  rw [and_comm (a := m % 2 = 0), and_comm (a := m % 2 = 0)]

/-- The greatest decimal of a grid that is not above a value, and the one after it. -/
theorem gridFloor_bounds (m : Nat) (e k : Int) : (gridFloor m e k : ℚ) * 10 ^ k ≤ m * 2 ^ e ∧
    (m : ℚ) * 2 ^ e < (gridFloor m e k + 1) * 10 ^ k := by
  have hc : (0 : ℚ) < 2 ^ (-e).toNat * 10 ^ (-k).toNat := by positivity
  have hden : ((twoPow (-e).toNat * tenPow k.toNat : Nat) : ℚ) = 10 ^ k * (2 ^ (-e).toNat * 10 ^ (-k).toNat) := by
    push_cast
    rw [tenPow_cast, twoPow_cast, ← zpow_mul_toNat (by norm_num) k]
    ring
  have hnum : ((m * twoPow e.toNat * tenPow (-k).toNat : Nat) : ℚ) =
      m * 2 ^ e * (2 ^ (-e).toNat * 10 ^ (-k).toNat) := by
    push_cast
    rw [tenPow_cast, twoPow_cast, ← zpow_mul_toNat (by norm_num) e]
    ring
  have hpos : 0 < twoPow (-e).toNat * tenPow k.toNat := Nat.mul_pos (twoPow_pos _) (tenPow_pos _)
  have hle := Nat.div_mul_le_self (m * twoPow e.toNat * tenPow (-k).toNat) (twoPow (-e).toNat * tenPow k.toNat)
  have hlt := Nat.lt_div_mul_add hpos (a := m * twoPow e.toNat * tenPow (-k).toNat)
  rw [← Nat.cast_le (α := ℚ), Nat.cast_mul, hnum, hden] at hle
  rw [← Nat.cast_lt (α := ℚ), hnum, Nat.cast_add, hden, Nat.cast_mul, hden] at hlt
  unfold gridFloor
  generalize m * twoPow e.toNat * tenPow (-k).toNat / (twoPow (-e).toNat * tenPow k.toNat) = floor at *
  constructor
  · refine le_of_mul_le_mul_right ?_ hc
    rw [mul_assoc]
    exact hle
  · refine lt_of_mul_lt_mul_right ?_ hc.le
    linarith

/-- A decimal that rounds to a positive value is positive. -/
theorem ne_zero_of_roundsTo (hm : 0 < m) (h : roundsTo m e d k = true) : d ≠ 0 := by
  rintro rfl
  obtain ⟨hlow, -⟩ := (roundsTo_iff.1 h).bounds hm
  have : (1 : ℚ) ≤ m := by exact_mod_cast hm
  have hpos : (0 : ℚ) < 2 ^ e := by positivity
  norm_num at hlow
  nlinarith

/-! ## The search -/

theorem roundsTo_of_onGrid (h : onGrid m e k = some d) : roundsTo m e d k = true := by
  unfold onGrid at h
  dsimp only at h
  split at h
  next hlow _ =>
    cases h
    exact hlow
  next _ hhigh =>
    cases h
    exact hhigh
  next => cases h
  next hlow hhigh =>
    split at h
    · cases h
      exact hlow
    · cases h
      exact hhigh
    · cases h
      split
      · exact hlow
      · exact hhigh

/-- A grid that is fine enough has a decimal that rounds to the value: the one after the value is near enough. -/
theorem isSome_onGrid (hm : 0 < m) (hk : (10 : ℚ) ^ k < 2 ^ (e - 1)) : (onGrid m e k).isSome = true := by
  obtain ⟨hle, hlt⟩ := gridFloor_bounds m e k
  obtain ⟨-, h1, h2⟩ := interval_bounds (e := e) hm
  have hpos : (0 : ℚ) < 2 ^ (e - 2) := by positivity
  have hround : roundsTo m e (gridFloor m e k + 1) k = true := by
    rw [roundsTo_iff]
    rw [zpow_sub_one₀ two_ne_zero, zpow_eq_four_mul] at hk
    rw [zpow_eq_four_mul] at hle hlt
    push_cast
    refine ⟨.inl ?_, .inl ?_⟩
    · nlinarith
    · rw [h2]
      nlinarith
  unfold onGrid
  dsimp only
  rw [hround]
  cases hlow : roundsTo m e (gridFloor m e k) k with
  | false => rfl
  | true =>
    dsimp only
    split <;> rfl

/-- The search finds a decimal that rounds to the value if there is one on the grids that it tries. -/
theorem roundsTo_firstGrid (hm : 0 < m) : ∀ {n : Nat} {k : Int} (i : Nat), i < n →
    (onGrid m e (k - i)).isSome = true → roundsTo m e (firstGrid m e n k).1 (firstGrid m e n k).2 = true
  | n + 1, k, i, hi, h => by
    rw [firstGrid]
    cases hgrid : onGrid m e k with
    | some d =>
      have hround := roundsTo_of_onGrid hgrid
      simp only [ne_zero_of_roundsTo hm hround, if_false]
      exact hround
    | none =>
      cases i with
      | zero => simp [hgrid] at h
      | succ i =>
        refine roundsTo_firstGrid hm i (Nat.lt_of_succ_lt_succ hi) ?_
        rw [show k - 1 - (i : Int) = k - ((i + 1 : Nat) : Int) by omega]
        exact h

theorem dropZeros_mul (d : Nat) (k : Int) : ((dropZeros d k).1 : ℚ) * 10 ^ (dropZeros d k).2 = d * 10 ^ k := by
  fun_induction dropZeros d k with
  | case1 d k h ih =>
    rw [ih, zpow_add_one₀ (by norm_num)]
    have : (d : ℚ) = 10 * (d / 10 : Nat) := by exact_mod_cast (by omega : d = 10 * (d / 10))
    rw [this]
    ring
  | case2 d k h => rfl

/-- Powers of ten and of two, by two ratios near to that of their logarithms. -/
theorem ten_zpow_lt (hpos : 0 ≤ k → 10 * k < 3 * e) (hneg : k < 0 → 93 * k < 28 * e) : (10 : ℚ) ^ k < 2 ^ e := by
  have hpow : ∀ (b : ℚ) (j : Int) (n : Nat), (b ^ j) ^ n = (b ^ n) ^ j := by
    intro b j n
    rw [← zpow_natCast, ← zpow_mul, mul_comm, zpow_mul, zpow_natCast]
  rcases le_or_gt 0 k with hk | hk
  · -- 10 ^ 3 < 2 ^ 10
    refine lt_of_pow_lt_pow_left₀ 3 (by positivity) ?_
    calc ((10 : ℚ) ^ k) ^ 3 = (10 ^ 3) ^ k := hpow 10 k 3
      _ ≤ (2 ^ 10) ^ k := zpow_le_zpow_left₀ hk (by norm_num) (by norm_num)
      _ = 2 ^ (10 * k) := (zpow_mul 2 10 k).symm
      _ < 2 ^ (3 * e) := zpow_lt_zpow_right₀ one_lt_two (hpos hk)
      _ = (2 ^ 3) ^ e := zpow_mul 2 3 e
      _ = (2 ^ e) ^ 3 := (hpow 2 e 3).symm
  · -- 2 ^ 93 < 10 ^ 28
    refine lt_of_pow_lt_pow_left₀ 28 (by positivity) ?_
    calc ((10 : ℚ) ^ k) ^ 28 = (10 ^ 28) ^ k := hpow 10 k 28
      _ ≤ (2 ^ 93) ^ k := by
        rw [← neg_neg k, zpow_neg, zpow_neg ((2 : ℚ) ^ 93)]
        exact inv_anti₀ (by positivity) (zpow_le_zpow_left₀ (by omega) (by norm_num) (by norm_num))
      _ = 2 ^ (93 * k) := (zpow_mul 2 93 k).symm
      _ < 2 ^ (28 * e) := zpow_lt_zpow_right₀ one_lt_two (hneg hk)
      _ = (2 ^ 28) ^ e := zpow_mul 2 28 e
      _ = (2 ^ e) ^ 28 := (hpow 2 e 28).symm

/-- The last grid that is tried is fine enough. -/
theorem isSome_finestGrid (hm : 0 < m) (hc : IsCanonical (finite negative m e)) :
    (onGrid m e (((m.log2 : Int) + 1 + e) * 30103 / 100000 + 2 - (24 : Nat))).isSome = true := by
  obtain ⟨hlt, hmin, hmax, -⟩ := hc
  have hlog : m.log2 < 53 := (Nat.log2_lt hm.ne').2 hlt
  unfold minExponent at hmin
  unfold maxExponent at hmax
  refine isSome_onGrid hm (ten_zpow_lt ?_ ?_)
  · omega
  · omega

/-- **The shortest decimal rounds to its value.** -/
theorem covers_shortest (hm : 0 < m) (hc : IsCanonical (finite negative m e)) :
    Covers m e ((shortest m e).1 * 10 ^ (shortest m e).2) := by
  have h := roundsTo_firstGrid hm (n := 25) 24 (by omega) (isSome_finestGrid hm hc)
  rw [roundsTo_iff] at h
  unfold shortest
  dsimp only
  rw [dropZeros_mul]
  exact h

/-! ## Reading decimals -/

theorem decimalLength_bounds {n : Nat} (hn : 0 < n) : (10 : ℚ) ^ ((decimalLength n : Int) - 1) ≤ n ∧
    (n : ℚ) < 10 ^ (decimalLength n : Int) := by
  have hpos : 0 < decimalLength n := Nat.length_toDigits_pos
  have hiff : ∀ k, 0 < k → (decimalLength n ≤ k ↔ n < 10 ^ k) := fun k hk =>
    Nat.length_toDigits_le_iff (by decide) hk
  constructor
  · obtain ⟨k, hk⟩ : ∃ k, decimalLength n = k + 1 := ⟨decimalLength n - 1, by omega⟩
    have hle : 10 ^ k ≤ n := by
      rcases Nat.eq_zero_or_pos k with rfl | hk'
      · exact hn
      · have := (hiff k hk').not
        omega
    rw [hk, Nat.cast_succ, add_sub_cancel_right, zpow_natCast]
    exact_mod_cast hle
  · rw [zpow_natCast]
    exact_mod_cast (hiff _ hpos).1 (le_refl _)

/-- **Reading a decimal that rounds to a value gives the value.** -/
theorem ofDecimal_of_covers {digits : Nat} {exponent : Int} (hm : 0 < m) (hc : IsCanonical (finite negative m e))
    (h : Covers m e (digits * 10 ^ exponent)) : ofDecimal negative digits exponent = finite negative m e := by
  have hdigits : digits ≠ 0 := ne_zero_of_roundsTo hm (roundsTo_iff.2 h)
  obtain ⟨hlow, hhigh⟩ := h.bounds hm
  obtain ⟨hlen, hlen'⟩ := decimalLength_bounds (Nat.pos_of_ne_zero hdigits)
  obtain ⟨hlt, hmin, hmax, -⟩ := id hc
  have hpos : (0 : ℚ) < 10 ^ exponent := by positivity
  have hpos' : (0 : ℚ) < 2 ^ e := by positivity
  have hsmall : ¬ exponent + decimalLength digits < -400 := by
    intro hsmall
    have : (10 : ℚ) ^ (exponent + decimalLength digits) < 2 ^ (e - 1) :=
      ten_zpow_lt (by omega) (by unfold minExponent at hmin; omega)
    rw [zpow_add₀ (by norm_num), zpow_sub_one₀ two_ne_zero] at this
    have hone : (1 : ℚ) ≤ m := by exact_mod_cast hm
    nlinarith
  have hbig : ¬ exponent + decimalLength digits > 400 := by
    intro hbig
    have : (2 : ℚ) ^ (e + 53) < 10 ^ (exponent + (decimalLength digits - 1)) := by
      unfold maxExponent at hmax
      calc (2 : ℚ) ^ (e + 53) < 2 ^ (3 * (exponent + (decimalLength digits - 1))) :=
            zpow_lt_zpow_right₀ one_lt_two (by omega)
        _ = (2 ^ 3) ^ (exponent + (decimalLength digits - 1)) := zpow_mul 2 3 _
        _ ≤ 10 ^ (exponent + (decimalLength digits - 1)) :=
          zpow_le_zpow_left₀ (by omega) (by norm_num) (by norm_num)
    rw [zpow_add₀ (by norm_num), zpow_add₀ (by norm_num)] at this
    have hone : (m : ℚ) + 1 ≤ 9007199254740992 := by exact_mod_cast (hlt : m < 9007199254740992)
    norm_num at this
    nlinarith
  unfold ofDecimal
  simp only [hdigits, hsmall, hbig, decide_false, Bool.or_self, if_false, Bool.false_eq_true]
  split
  next hexp =>
    obtain ⟨n, rfl⟩ := Int.eq_ofNat_of_zero_le hexp
    refine ofRatio_of_covers (Nat.mul_pos (Nat.pos_of_ne_zero hdigits) (tenPow_pos _)) Nat.one_pos hm hc ?_
    simpa using h
  next hexp =>
    obtain ⟨n, hn⟩ := Int.eq_ofNat_of_zero_le (by omega : 0 ≤ -exponent)
    obtain rfl : exponent = -(n : Int) := by omega
    refine ofRatio_of_covers (Nat.pos_of_ne_zero hdigits) (tenPow_pos _) hm hc ?_
    simpa [div_eq_mul_inv] using h

theorem isCanonical_ofDecimal (digits : Nat) (exponent : Int) :
    IsCanonical (ofDecimal negative digits exponent) := by
  unfold ofDecimal
  dsimp only
  split_ifs
  · exact isCanonical_zero
  · trivial
  · exact isCanonical_ofRatio Nat.one_pos
  · exact isCanonical_ofRatio (tenPow_pos _)

end FixtureCheck.Binary64
