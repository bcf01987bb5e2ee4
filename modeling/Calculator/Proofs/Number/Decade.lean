import Calculator.Decimal.Digits
import Calculator.Proofs.Number.Nearest
import Calculator.Proofs.Number.Scale
import Mathlib.Tactic.FieldSimp

/-!
# Decades and their grids

A magnitude lies between the powers of ten of its decade and of the next one. With a count of
significant digits, the digits of a magnitude are the nearest whole number of steps on the grid of its
decade.
-/
namespace Calculator

theorem lt_pow_digitCount (n : ℕ) : n < 10 ^ digitCount n :=
  (Nat.length_toDigits_le_iff (by decide) Nat.length_toDigits_pos).1 (Nat.le_refl _)

theorem pow_digitCount_le {n : ℕ} (h : n ≠ 0) : 10 ^ (digitCount n - 1) ≤ n := by
  by_contra small
  rcases Nat.eq_zero_or_pos (digitCount n - 1) with single | several
  · rw [single] at small
    omega
  · have shorter : digitCount n ≤ digitCount n - 1 :=
      (Nat.length_toDigits_le_iff (by decide) several).2 (not_le.1 small)
    omega

theorem digitCount_pos (n : ℕ) : 0 < digitCount n :=
  Nat.length_toDigits_pos

/-! ## Powers of ten, in quanta -/

theorem pow_ten_pos (e : ℤ) : (0 : ℚ) < 10 ^ e * quantaPerUnit :=
  mul_pos (zpow_pos (by norm_num) e) (by exact_mod_cast quantaPerUnit_pos)

theorem pow_ten_add (e : ℤ) (places : ℕ) :
    (10 : ℚ) ^ (e + places) * quantaPerUnit = 10 ^ places * (10 ^ e * quantaPerUnit) := by
  rw [zpow_add₀ (by norm_num), zpow_natCast]
  ring

theorem pow_ten_succ (e : ℤ) :
    (10 : ℚ) ^ (e + 1) * quantaPerUnit = 10 * (10 ^ e * quantaPerUnit) := by
  rw [← Nat.cast_one, pow_ten_add, pow_one]

section Compared

variable {k : ℤ} {a b c n : ℕ}

theorem pow_ten_sub (a b : ℕ) : (10 : ℚ) ^ ((a : ℤ) - b) = 10 ^ a / 10 ^ b := by
  rw [zpow_sub₀ (by norm_num), zpow_natCast, zpow_natCast]

theorem mul_pow_ten_le {i j : ℤ} (h : i ≤ j) (c : ℕ) :
    (c : ℚ) * (10 ^ i * quantaPerUnit) ≤ c * (10 ^ j * quantaPerUnit) := by
  have unit : (0 : ℚ) < quantaPerUnit := by exact_mod_cast quantaPerUnit_pos
  exact mul_le_mul_of_nonneg_left
    (mul_le_mul_of_nonneg_right (zpow_le_zpow_right₀ (by norm_num) h) unit.le) c.cast_nonneg

theorem mul_pow_ten_lt (h : c * (10 ^ a * quantaPerUnit) < n * 10 ^ b) (order : k ≤ a - b) :
    (c : ℚ) * (10 ^ k * quantaPerUnit) < n := by
  have greatest : (c : ℚ) * (10 ^ ((a : ℤ) - b) * quantaPerUnit) < n := by
    rw [pow_ten_sub, div_mul_eq_mul_div, mul_div_assoc', div_lt_iff₀ (by positivity)]
    exact_mod_cast h
  exact (mul_pow_ten_le order c).trans_lt greatest

theorem lt_mul_pow_ten (h : n * 10 ^ b < c * (10 ^ a * quantaPerUnit)) (order : a - b ≤ k) :
    (n : ℚ) < c * (10 ^ k * quantaPerUnit) := by
  have least : (n : ℚ) < c * (10 ^ ((a : ℤ) - b) * quantaPerUnit) := by
    rw [pow_ten_sub, div_mul_eq_mul_div, mul_div_assoc', lt_div_iff₀ (by positivity)]
    exact_mod_cast h
  exact least.trans_le (mul_pow_ten_le order c)

end Compared

/-! ## Decades -/

namespace Magnitude

/-- A magnitude lies in its decade. -/
theorem decade_bounds {m : Magnitude} (h : m.quanta ≠ 0) :
    (10 : ℚ) ^ m.decade * quantaPerUnit ≤ m.quanta ∧
      (m.quanta : ℚ) < 10 ^ (m.decade + 1) * quantaPerUnit := by
  unfold decade
  dsimp only
  split
  · rename_i whole
    have lower := pow_digitCount_le whole
    have upper := lt_pow_digitCount (m.quanta / quantaPerUnit)
    have positive := digitCount_pos (m.quanta / quantaPerUnit)
    rw [Nat.le_div_iff_mul_le quantaPerUnit_pos] at lower
    rw [Nat.div_lt_iff_lt_mul quantaPerUnit_pos] at upper
    generalize digitCount (m.quanta / quantaPerUnit) = count at *
    obtain ⟨count, rfl⟩ : ∃ fewer, count = fewer + 1 := ⟨count - 1, by omega⟩
    have exponent : ((count + 1 : ℕ) : ℤ) - 1 = (count : ℕ) := by omega
    rw [exponent, zpow_natCast, ← Nat.cast_succ, zpow_natCast]
    exact ⟨by exact_mod_cast lower, by exact_mod_cast upper⟩
  · rename_i fraction
    have small : m.quanta < quantaPerUnit :=
      (Nat.div_eq_zero_iff_lt quantaPerUnit_pos).1 (not_not.1 fraction)
    -- the reciprocal is the least whole number of times that the magnitude reaches one
    obtain ⟨reciprocal, same⟩ : ∃ r, r = (quantaPerUnit + m.quanta - 1) / m.quanta := ⟨_, rfl⟩
    have reaches : quantaPerUnit ≤ reciprocal * m.quanta := by
      have split := Nat.div_add_mod (quantaPerUnit + m.quanta - 1) m.quanta
      have rest := Nat.mod_lt (quantaPerUnit + m.quanta - 1) (Nat.pos_of_ne_zero h)
      rw [← same, Nat.mul_comm] at split
      omega
    have before : (reciprocal - 1) * m.quanta < quantaPerUnit := by
      have product := Nat.div_mul_le_self (quantaPerUnit + m.quanta - 1) m.quanta
      rw [← same] at product
      rw [Nat.sub_mul]
      omega
    have several : reciprocal - 1 ≠ 0 := by
      intro none
      have once : reciprocal * m.quanta ≤ 1 * m.quanta := Nat.mul_le_mul_right _ (by omega)
      omega
    have lower := pow_digitCount_le several
    have upper := lt_pow_digitCount (reciprocal - 1)
    have positive := digitCount_pos (reciprocal - 1)
    rw [← same]
    generalize digitCount (reciprocal - 1) = count at *
    obtain ⟨count, rfl⟩ : ∃ fewer, count = fewer + 1 := ⟨count - 1, by omega⟩
    have exponent : Int.negOfNat (count + 1) = -((count + 1 : ℕ) : ℤ) := Int.negOfNat_eq
    have next : -((count + 1 : ℕ) : ℤ) + 1 = -(count : ℕ) := by omega
    rw [exponent, next, zpow_neg, zpow_neg, zpow_natCast, zpow_natCast,
      inv_mul_le_iff₀ (by positivity), lt_inv_mul_iff₀ (by positivity)]
    constructor
    · have enough : quantaPerUnit ≤ 10 ^ (count + 1) * m.quanta :=
        reaches.trans (Nat.mul_le_mul_right _ (by omega))
      exact_mod_cast enough
    · have short : 10 ^ count * m.quanta < quantaPerUnit :=
        (Nat.mul_le_mul_right _ lower).trans_lt before
      exact_mod_cast short

/-- Two decades have no number in common. -/
theorem decade_eq {m : Magnitude} (h : m.quanta ≠ 0) {k : ℤ}
    (lower : (10 : ℚ) ^ k * quantaPerUnit ≤ m.quanta)
    (upper : (m.quanta : ℚ) < 10 ^ (k + 1) * quantaPerUnit) : m.decade = k := by
  have unit : (0 : ℚ) < quantaPerUnit := by exact_mod_cast quantaPerUnit_pos
  obtain ⟨lower', upper'⟩ := decade_bounds h
  have first : k < m.decade + 1 :=
    (zpow_lt_zpow_iff_right₀ (by norm_num)).1 (lt_of_mul_lt_mul_right (lower.trans_lt upper') unit.le)
  have second : m.decade < k + 1 :=
    (zpow_lt_zpow_iff_right₀ (by norm_num)).1 (lt_of_mul_lt_mul_right (lower'.trans_lt upper) unit.le)
  omega

/-- The quotient by a power of ten. -/
theorem quotientBy_eq (m : Magnitude) (e : ℤ) :
    0 < (m.quotientBy e).2 ∧
      ((m.quotientBy e).1 : ℚ) / (m.quotientBy e).2 = m.quanta / (10 ^ e * quantaPerUnit) := by
  have unit : (0 : ℚ) < quantaPerUnit := by exact_mod_cast quantaPerUnit_pos
  cases e with
  | ofNat e =>
    simp only [quotientBy, Nat.cast_mul, Nat.pow_eq, Nat.cast_pow, Int.ofNat_eq_natCast,
      zpow_natCast, Nat.cast_ofNat]
    refine ⟨Nat.mul_pos quantaPerUnit_pos (Nat.pow_pos (by decide)), ?_⟩
    rw [mul_comm (quantaPerUnit : ℚ)]
  | negSucc e =>
    simp only [quotientBy, Nat.cast_mul, Nat.pow_eq, Nat.cast_pow, zpow_negSucc, Nat.cast_ofNat]
    refine ⟨quantaPerUnit_pos, ?_⟩
    field_simp

/-- The step between neighbours on the grid of a magnitude, in quanta. -/
def gridStep (m : Magnitude) (count : ℕ) : ℚ :=
  10 ^ m.gridExponent count * quantaPerUnit

theorem gridStep_pos (m : Magnitude) (count : ℕ) : 0 < m.gridStep count :=
  pow_ten_pos _

/-- The significant digits are the nearest whole number of steps. -/
theorem nearest_significant (m : Magnitude) (count : ℕ) :
    Nearest (m.quanta / m.gridStep count) (m.significant count).digits := by
  obtain ⟨positive, quotient⟩ := m.quotientBy_eq (m.gridExponent count)
  have rounded := nearest_roundDiv (m.quotientBy (m.gridExponent count)).1 positive
  rw [quotient] at rounded
  exact rounded

theorem significant_eq {m : Magnitude} {count n : ℕ}
    (h : Nearest (m.quanta / m.gridStep count) n) :
    m.significant count = ⟨n, m.gridExponent count⟩ := by
  rw [← (m.nearest_significant count).unique h]
  rfl

/-- A magnitude has fifteen digits before the point on its grid. -/
theorem grid_bounds {m : Magnitude} (h : m.quanta ≠ 0) :
    10 ^ 14 * m.gridStep 15 ≤ m.quanta ∧ (m.quanta : ℚ) < 10 ^ 15 * m.gridStep 15 := by
  have bounds := decade_bounds h
  have decade : m.decade = m.gridExponent 15 + (14 : ℕ) := by
    unfold gridExponent
    omega
  have next : m.decade + 1 = m.gridExponent 15 + (15 : ℕ) := by
    unfold gridExponent
    omega
  rw [next, decade, pow_ten_add, pow_ten_add] at bounds
  exact bounds

/-- Fifteen digits are between the powers of ten of their decade. -/
theorem significant_bounds {m : Magnitude} (h : m.quanta ≠ 0) :
    10 ^ 14 ≤ (m.significant 15).digits ∧ (m.significant 15).digits ≤ 10 ^ 15 := by
  have step := m.gridStep_pos 15
  obtain ⟨lower, upper⟩ := grid_bounds h
  rw [← le_div_iff₀ step] at lower
  rw [← div_lt_iff₀ step] at upper
  obtain ⟨below, above⟩ := abs_le.1 (m.nearest_significant 15).distance_le
  constructor
  · have bound : (10 ^ 14 : ℚ) < (m.significant 15).digits + 1 := by linarith
    have bound : 10 ^ 14 < (m.significant 15).digits + 1 := by exact_mod_cast bound
    exact Nat.lt_succ_iff.1 bound
  · have bound : ((m.significant 15).digits : ℚ) < 10 ^ 15 + 1 := by linarith
    have bound : (m.significant 15).digits < 10 ^ 15 + 1 := by exact_mod_cast bound
    exact Nat.lt_succ_iff.1 bound

/-- The greatest magnitude has fifty-three binary ones. -/
def greatest : Magnitude :=
  ⟨Nat.pow 2 53 - 1, 2045, by decide, .inr (by decide), by decide⟩

theorem quanta_le_quanta {m m' : Magnitude} (significand : m.significand ≤ m'.significand)
    (scale : m.scale ≤ m'.scale) : m.quanta ≤ m'.quanta :=
  Nat.mul_le_mul significand (Nat.pow_le_pow_right two_pos scale)

theorem quanta_le_greatest (m : Magnitude) : m.quanta ≤ greatest.quanta :=
  quanta_le_quanta (Nat.le_pred_of_lt m.significand_lt) m.scale_le

/-- The decades of the least and of the greatest magnitudes. -/
theorem decade_range {m : Magnitude} (h : m.quanta ≠ 0) : -324 ≤ m.decade ∧ m.decade ≤ 308 := by
  obtain ⟨lower, upper⟩ := decade_bounds h
  constructor
  · by_contra below
    have small := mul_pow_ten_lt (k := m.decade + 1) (a := 0) (b := 324) (c := 1) (n := 1)
      (by decide +kernel) (by omega)
    have least : (1 : ℚ) ≤ m.quanta := by exact_mod_cast Nat.one_le_iff_ne_zero.2 h
    rw [Nat.cast_one, one_mul] at small
    exact absurd (least.trans_lt upper) (not_lt.2 small.le)
  · by_contra above
    have large := lt_mul_pow_ten (k := m.decade) (a := 309) (b := 0) (c := 1)
      (n := greatest.quanta) (by decide +kernel) (by omega)
    have most : (m.quanta : ℚ) ≤ greatest.quanta := by exact_mod_cast m.quanta_le_greatest
    rw [Nat.cast_one, one_mul] at large
    exact absurd (lower.trans most) (not_le.2 large)

end Magnitude

end Calculator
