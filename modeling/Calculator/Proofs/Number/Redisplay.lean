import Calculator.Proofs.Number.Decade
import Calculator.Proofs.Number.Written

/-!
# Displayed digits read back

The fifteen digits of a magnitude are read as the magnitude nearest to them, which is at least as near
to them as the one they were taken from. So it is shown with digits of the same value again, in its own
decade or across the border to a neighbouring one. Only the greatest magnitudes are shown with digits
that no magnitude is near enough to.
-/
namespace Calculator

namespace Decimal

/-- The exact value of a decimal, in quanta. -/
def quanta (d : Decimal) : ℚ :=
  d.digits * (10 ^ d.exponent * quantaPerUnit)

/-- A decimal is read as the quotient that is its exact value. -/
theorem exists_quotient (d : Decimal) : ∃ num den : ℕ, 0 < den ∧ (num / den : ℚ) = d.quanta ∧
    d.toMagnitude? = Magnitude.ofQuotient? num den := by
  refine ⟨_, _, Nat.pow_pos (by decide), ?_, d.toMagnitude?_eq_nearest?⟩
  have power : (10 : ℚ) ^ d.exponent.toNat / 10 ^ (-d.exponent).toNat = 10 ^ d.exponent := by
    rw [← zpow_natCast, ← zpow_natCast, ← zpow_sub₀ (by norm_num)]
    congr 1
    omega
  rw [quanta, ← power]
  simp only [Nat.pow_eq, Nat.cast_mul, Nat.cast_pow, Nat.cast_ofNat]
  ring

section Reading

variable {d : Decimal} {m : Magnitude}

/-- No magnitude is nearer to a decimal than the one it is read as. -/
theorem distance_le_distance (read : d.toMagnitude? = some m) (m' : Magnitude) :
    |d.quanta - m.quanta| ≤ |d.quanta - m'.quanta| := by
  obtain ⟨num, den, positive, same, reading⟩ := d.exists_quotient
  rw [← same]
  exact Magnitude.distance_le_distance positive (reading.symm.trans read) m'

/-- A decimal is read with an error of half a quantum, or of less than its own `2 ^ 53`th part. -/
theorem distance_le (read : d.toMagnitude? = some m) :
    d.quanta < 2 ^ 53 ∧ |d.quanta - m.quanta| ≤ 1 / 2 ∨
      2 ^ 53 * |d.quanta - m.quanta| ≤ d.quanta := by
  obtain ⟨num, den, positive, same, reading⟩ := d.exists_quotient
  have near := Magnitude.distance_le_half_step positive (reading.symm.trans read)
  obtain ⟨lower, upper⟩ := Magnitude.quotient_bounds num positive
  rw [same] at near lower upper
  rcases Nat.eq_zero_or_pos (Magnitude.scaleOf (num / den)) with none | large
  · rw [none, pow_zero, mul_one] at near upper
    exact .inl ⟨upper, near⟩
  · right
    linarith [lower large]

theorem le_of_toMagnitude?_eq_none (read : d.toMagnitude? = none) :
    (Magnitude.overflowQuanta : ℚ) ≤ d.quanta := by
  obtain ⟨num, den, positive, same, reading⟩ := d.exists_quotient
  rw [← same]
  exact Magnitude.le_of_ofQuotient?_eq_none positive (reading.symm.trans read)

end Reading

end Decimal

/-! ## Powers of ten among the least magnitudes -/

section PowersOfTen

variable {k : ℤ} {p : ℚ}

/-- Two powers of ten are between `10 ^ 14` and `2 ^ 53` quanta. -/
theorem exponent_of_few_quanta (power : p = 10 ^ k * quantaPerUnit) (large : 10 ^ 14 ≤ p)
    (small : p < 2 ^ 53) : k = -308 ∨ k = -309 := by
  have least : -309 ≤ k := by
    by_contra less
    have bound : ((1 : ℕ) : ℚ) * p < (10 ^ 14 : ℕ) := by
      rw [power]
      exact mul_pow_ten_lt (a := 0) (b := 310) (by decide +kernel) (by omega)
    norm_num at bound large
    linarith
  have greatest : k ≤ -308 := by
    by_contra more
    have bound : ((2 ^ 53 : ℕ) : ℚ) < (1 : ℕ) * p := by
      rw [power]
      exact lt_mul_pow_ten (a := 0) (b := 307) (by decide +kernel) (by omega)
    norm_num at bound small
    linarith
  omega

/-- A power of ten that a magnitude `m` above it is shown as is read as a magnitude `m'` below it only
with an error that fifteen digits in the lower decade do not show. Where magnitudes are spaced by one
quantum, two powers have to be looked at: all others are too far from the magnitude above them or
have more binary places. -/
theorem distance_below_pow_ten {m m' : ℕ} (power : p = 10 ^ k * quantaPerUnit) (above : p ≤ m)
    (shown : 2 * 10 ^ 14 * (m - p) ≤ p) (below : m' < p) (nearer : p - m' ≤ m - p)
    (read : p < 2 ^ 53 ∧ p - m' ≤ 1 / 2 ∨ 2 ^ 53 * (p - m') ≤ p) :
    2 * 10 ^ 15 * (p - m') < p := by
  rcases read with ⟨small, half⟩ | precise
  · have apart : m' + 1 ≤ m := by
      have different : (m' : ℚ) < m := below.trans_le above
      exact_mod_cast different
    have apart : (m' + 1 : ℚ) ≤ m := by exact_mod_cast apart
    obtain rfl | rfl := exponent_of_few_quanta power (by linarith) small
    · have bound : ((10 ^ 15 : ℕ) : ℚ) < (1 : ℕ) * p := by
        rw [power]
        exact lt_mul_pow_ten (a := 0) (b := 308) (by decide +kernel) (by omega)
      norm_num at bound
      linarith
    · -- this power lies more than half a quantum above the magnitude below it
      have lower : ((2 * 202402253307310 + 1 : ℕ) : ℚ) < (2 : ℕ) * p := by
        rw [power]
        exact lt_mul_pow_ten (a := 0) (b := 309) (by decide +kernel) (by omega)
      have upper : ((1 : ℕ) : ℚ) * p < (202402253307310 + 1 : ℕ) := by
        rw [power]
        exact mul_pow_ten_lt (a := 0) (b := 309) (by decide +kernel) (by omega)
      rw [Nat.cast_one, one_mul] at upper
      have least : m' < 202402253307310 + 1 := by exact_mod_cast below.trans upper
      have least : (m' : ℚ) ≤ 202402253307310 := by exact_mod_cast Nat.lt_succ_iff.1 least
      norm_num at lower
      linarith
  · linarith

end PowersOfTen

namespace Magnitude

/-- The digits of a magnitude on a grid on which it has fifteen. -/
theorem significant_on_grid {m : Magnitude} {e : ℤ} {n : ℕ}
    (lower : 10 ^ 14 * (10 ^ e * quantaPerUnit) ≤ (m.quanta : ℚ))
    (upper : (m.quanta : ℚ) < 10 ^ 15 * (10 ^ e * quantaPerUnit))
    (near : Nearest (m.quanta / (10 ^ e * quantaPerUnit)) n) : m.significant 15 = ⟨n, e⟩ := by
  have nonzero : m.quanta ≠ 0 := by
    have quanta : (0 : ℚ) < m.quanta := by linarith [pow_ten_pos e]
    exact_mod_cast quanta.ne'
  have decade : m.decade = e + (14 : ℕ) := by
    apply decade_eq nonzero
    · rw [pow_ten_add]
      exact lower
    · rw [add_assoc, ← Nat.cast_succ, pow_ten_add]
      exact upper
  have exponent : m.gridExponent 15 = e := by
    rw [gridExponent, decade]
    omega
  rw [← exponent] at near
  rw [significant_eq near, exponent]

section Borders

variable {m : Magnitude} {e : ℤ}

/-- Nines that round up are shown as one and zeros in the decade above. -/
theorem significant_raised (raised : 10 ^ 15 * (10 ^ e * quantaPerUnit) ≤ (m.quanta : ℚ))
    (near : m.quanta / (10 ^ e * quantaPerUnit) - (10 : ℚ) ^ 15 ≤ 1 / 2) :
    m.significant 15 = ⟨10 ^ 14, e + 1⟩ := by
  have step := pow_ten_pos e
  rw [sub_le_iff_le_add, div_le_iff₀ step] at near
  have next := pow_ten_pos (e + 1)
  apply significant_on_grid
  · rw [pow_ten_succ]
    linarith
  · rw [pow_ten_succ]
    linarith
  · left
    rw [abs_lt, sub_lt_iff_lt_add, lt_sub_iff_add_lt, lt_div_iff₀ next, div_lt_iff₀ next,
      pow_ten_succ]
    push_cast
    constructor <;> linarith

/-- Just below a power of ten fifteen nines round up to it. -/
theorem significant_lowered (lowered : (m.quanta : ℚ) < 10 ^ 15 * (10 ^ e * quantaPerUnit))
    (near : 2 * 10 ^ 15 * (10 ^ 15 * (10 ^ e * quantaPerUnit) - m.quanta) <
      10 ^ 15 * ((10 : ℚ) ^ e * quantaPerUnit)) :
    m.significant 15 = ⟨10 ^ 15, e⟩ := by
  have step := pow_ten_pos e
  apply significant_on_grid
  · linarith
  · exact lowered
  · left
    rw [abs_lt, sub_lt_iff_lt_add, lt_sub_iff_add_lt, lt_div_iff₀ step, div_lt_iff₀ step]
    push_cast
    constructor <;> linarith

end Borders

section Reread

variable {m m' : Magnitude}

theorem quanta_significant (m : Magnitude) :
    (m.significant 15).quanta = (m.significant 15).digits * m.gridStep 15 := rfl

theorem finer_gridStep (m : Magnitude) :
    m.gridStep 15 = 10 * (10 ^ (m.gridExponent 15 - 1) * quantaPerUnit) := by
  rw [← pow_ten_succ, sub_add_cancel, gridStep]

/-- Counted in steps of the grid, the magnitude that the digits are read as is at least as near to them
as the one they were taken from. -/
theorem distance_reread_le (read : (m.significant 15).toMagnitude? = some m') :
    |m'.quanta / m.gridStep 15 - (m.significant 15).digits| ≤
      |m.quanta / m.gridStep 15 - (m.significant 15).digits| := by
  have step := m.gridStep_pos 15
  have nearer := Decimal.distance_le_distance read m
  rw [quanta_significant, abs_sub_comm, abs_sub_comm _ (m.quanta : ℚ), abs_sub_mul step,
    abs_sub_mul step] at nearer
  exact le_of_mul_le_mul_right nearer step

theorem reread_bounds (read : (m.significant 15).toMagnitude? = some m') :
    ((m.significant 15).digits - 1 / 2) * m.gridStep 15 ≤ m'.quanta ∧
      m'.quanta ≤ ((m.significant 15).digits + 1 / 2) * m.gridStep 15 := by
  have step := m.gridStep_pos 15
  obtain ⟨below, above⟩ :=
    abs_le.1 ((distance_reread_le read).trans (m.nearest_significant 15).distance_le)
  constructor
  · rw [← le_div_iff₀ step]
    linarith
  · rw [← div_le_iff₀ step]
    linarith

theorem reread_ne_zero (h : m.quanta ≠ 0) (read : (m.significant 15).toMagnitude? = some m') :
    m'.quanta ≠ 0 := by
  obtain ⟨least, -⟩ := significant_bounds h
  have few : (10 ^ 14 : ℚ) ≤ (m.significant 15).digits := by exact_mod_cast least
  have quanta : (0 : ℚ) < m'.quanta :=
    (mul_pos (by linarith) (m.gridStep_pos 15)).trans_le (reread_bounds read).1
  exact_mod_cast quanta.ne'

/-- Digits that are read below their decade are a power of ten, and nines are rounded up to it. -/
theorem redisplayed_of_lowered (h : m.quanta ≠ 0)
    (read : (m.significant 15).toMagnitude? = some m')
    (lowered : (m'.quanta : ℚ) < 10 ^ 14 * m.gridStep 15) :
    (m'.significant 15).SameValue (m.significant 15) := by
  have step := m.gridStep_pos 15
  obtain ⟨lower, -⟩ := grid_bounds h
  obtain ⟨least, -⟩ := significant_bounds h
  have power : (m.significant 15).digits = 10 ^ 14 := by
    have bound := lt_of_mul_lt_mul_right ((reread_bounds read).1.trans_lt lowered) step.le
    have bound : ((m.significant 15).digits : ℚ) < 10 ^ 14 + 1 := by linarith
    have bound : (m.significant 15).digits < 10 ^ 14 + 1 := by exact_mod_cast bound
    omega
  have nearer := Decimal.distance_le_distance read m
  have error := Decimal.distance_le read
  have shown := (abs_le.1 (m.nearest_significant 15).distance_le).2
  rw [quanta_significant, power, Nat.cast_pow, Nat.cast_ofNat, abs_of_pos (sub_pos.2 lowered)]
    at nearer error
  rw [abs_sub_comm, abs_of_nonneg (sub_nonneg.2 lower)] at nearer
  rw [power, Nat.cast_pow, Nat.cast_ofNat, sub_le_iff_le_add, div_le_iff₀ step] at shown
  have ten : 10 ^ 14 * m.gridStep 15 = 10 ^ (m.gridExponent 15 + (14 : ℕ)) * quantaPerUnit :=
    (pow_ten_add _ 14).symm
  have precise := distance_below_pow_ten ten lower (by linarith) lowered nearer error
  have same : m.significant 15 = ⟨(m.significant 15).digits, m.gridExponent 15⟩ := rfl
  rw [same, power]
  rw [finer_gridStep] at lowered precise
  rw [significant_lowered (e := m.gridExponent 15 - 1) (by linarith) (by linarith)]
  exact ⟨0, 1, by simp [Decimal.shift]⟩

/-- Digits that are read above their decade are nines that were rounded up, and one and zeros are
shown. -/
theorem redisplayed_of_raised (h : m.quanta ≠ 0)
    (read : (m.significant 15).toMagnitude? = some m')
    (raised : 10 ^ 15 * m.gridStep 15 ≤ (m'.quanta : ℚ)) :
    (m'.significant 15).SameValue (m.significant 15) := by
  have step := m.gridStep_pos 15
  obtain ⟨-, above⟩ := reread_bounds read
  obtain ⟨-, most⟩ := significant_bounds h
  have nines : (m.significant 15).digits = 10 ^ 15 := by
    have bound := le_of_mul_le_mul_right (raised.trans above) step
    have bound : (10 ^ 15 : ℚ) < (m.significant 15).digits + 1 := by linarith
    have bound : 10 ^ 15 < (m.significant 15).digits + 1 := by exact_mod_cast bound
    omega
  have same : m.significant 15 = ⟨(m.significant 15).digits, m.gridExponent 15⟩ := rfl
  rw [nines, Nat.cast_pow, Nat.cast_ofNat, ← div_le_iff₀ step] at above
  rw [same, nines, significant_raised raised (sub_le_iff_le_add'.2 above)]
  exact ⟨1, 0, by simp [Decimal.shift]⟩

/-- Fifteen digits that are read back as a magnitude are the digits of that one too, if need be with
the point moved by one place. -/
theorem significant_redisplayed (h : m.quanta ≠ 0)
    (read : (m.significant 15).toMagnitude? = some m') :
    m'.quanta ≠ 0 ∧ (m'.significant 15).SameValue (m.significant 15) := by
  refine ⟨reread_ne_zero h read, ?_⟩
  rcases lt_or_ge (m'.quanta : ℚ) (10 ^ 14 * m.gridStep 15) with lowered | lower
  · exact redisplayed_of_lowered h read lowered
  · rcases lt_or_ge (m'.quanta : ℚ) (10 ^ 15 * m.gridStep 15) with upper | raised
    · have nearest := (m.nearest_significant 15).of_nearer (distance_reread_le read)
      rw [significant_on_grid lower upper nearest]
      exact .refl _
    · exact redisplayed_of_raised h read raised

end Reread

section Unread

variable {m : Magnitude}

/-- The grid of digits that no magnitude is near enough to is the one of the greatest magnitudes. -/
theorem gridExponent_of_unread (h : m.quanta ≠ 0)
    (unread : (m.significant 15).toMagnitude? = none) : m.gridExponent 15 = 294 := by
  have step := m.gridStep_pos 15
  have beyond := Decimal.le_of_toMagnitude?_eq_none unread
  have within : (m.quanta : ℚ) ≤ greatest.quanta := by exact_mod_cast m.quanta_le_greatest
  obtain ⟨lower, -⟩ := grid_bounds h
  obtain ⟨-, most⟩ := significant_bounds h
  have most : ((m.significant 15).digits : ℚ) ≤ (10 ^ 15 : ℕ) := by exact_mod_cast most
  have most := mul_le_mul_of_nonneg_right most step.le
  rw [quanta_significant] at beyond
  apply le_antisymm
  · by_contra more
    have large := lt_mul_pow_ten (k := m.gridExponent 15) (a := 295) (b := 0) (c := 10 ^ 14)
      (n := greatest.quanta) (by decide +kernel) (by omega)
    rw [Nat.cast_pow, Nat.cast_ofNat] at large
    exact absurd (lower.trans within) (not_le.2 large)
  · by_contra less
    have short := mul_pow_ten_lt (k := m.gridExponent 15) (a := 293) (b := 0) (c := 10 ^ 15)
      (n := overflowQuanta) (by decide +kernel) (by omega)
    exact absurd (beyond.trans most) (not_le.2 short)

/-- Digits that no magnitude is near enough to are those of the greatest magnitudes. -/
theorem significant_of_unread (h : m.quanta ≠ 0)
    (unread : (m.significant 15).toMagnitude? = none) : m.significant 15 = ⟨179769313486232, 294⟩ := by
  have step := m.gridStep_pos 15
  have exponent := gridExponent_of_unread h unread
  have same : m.significant 15 = ⟨(m.significant 15).digits, m.gridExponent 15⟩ := rfl
  have beyond := Decimal.le_of_toMagnitude?_eq_none unread
  have within : (m.quanta : ℚ) ≤ greatest.quanta := by exact_mod_cast m.quanta_le_greatest
  obtain ⟨near, -⟩ := abs_le.1 (m.nearest_significant 15).distance_le
  rw [quanta_significant] at beyond
  rw [le_sub_iff_add_le, le_div_iff₀ step] at near
  have below := mul_pow_ten_lt (k := m.gridExponent 15) (a := 294) (b := 0) (c := 179769313486231)
    (n := overflowQuanta) (by decide +kernel) (by omega)
  have above := lt_mul_pow_ten (k := m.gridExponent 15) (a := 294) (b := 0)
    (c := 2 * 179769313486232 + 1) (n := 2 * greatest.quanta) (by decide +kernel) (by omega)
  have more := lt_of_mul_lt_mul_right (below.trans_le beyond) step.le
  have fewer : ((m.significant 15).digits : ℚ) < (179769313486233 : ℕ) := by
    refine lt_of_mul_lt_mul_right ?_ step.le
    rw [Nat.cast_mul, Nat.cast_two] at above
    rw [← gridStep] at above
    generalize greatest.quanta = most at above within
    push_cast at above ⊢
    linarith
  have more : 179769313486231 < (m.significant 15).digits := by exact_mod_cast more
  have fewer : (m.significant 15).digits < 179769313486233 := by exact_mod_cast fewer
  rw [same, exponent, le_antisymm (Nat.lt_succ_iff.1 fewer) (Nat.succ_le_iff.2 more)]

end Unread

end Magnitude

end Calculator
