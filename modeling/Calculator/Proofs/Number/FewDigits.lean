import Calculator.Proofs.Number.Redisplay

/-!
# Numbers of few digits

A number that a decimal of at most fifteen digits is read as is read from its own fifteen digits too.
Where the steps of the grid are wider than a quantum, such a decimal is one of its points, or lies just
below a power of ten that the number is shown as. Where they are narrower, the digits are too near to
the number to be read as another one.
-/
namespace Calculator

namespace Decimal

theorem quanta_eq_mul (digits : ℕ) (e : ℤ) :
    quanta ⟨digits, e⟩ = digits * (10 ^ e * quantaPerUnit) := rfl

/-- A decimal of an exponent that is not below that of a grid is one of its points. -/
theorem exists_sameValue (d : Decimal) {e : ℤ} (coarse : e ≤ d.exponent) :
    ∃ n : ℕ, d.SameValue ⟨n, e⟩ ∧ d.quanta = n * (10 ^ e * quantaPerUnit) := by
  obtain ⟨zeros, exponent⟩ : ∃ zeros : ℕ, d.exponent = e + zeros :=
    ⟨(d.exponent - e).toNat, by omega⟩
  refine ⟨d.digits * Nat.pow 10 zeros, ⟨zeros, 0, ?_⟩, ?_⟩
  · simp [shift, exponent]
  · rw [quanta, exponent, pow_ten_add]
    simp only [Nat.pow_eq, Nat.cast_mul, Nat.cast_pow, Nat.cast_ofNat]
    ring

/-- Fifteen digits of an exponent below that of a grid are less than one and fourteen zeros on it. -/
theorem quanta_lt (d : Decimal) {e : ℤ} (few : d.digits < 10 ^ 15) (fine : d.exponent < e) :
    d.quanta < 10 ^ 14 * (10 ^ e * quantaPerUnit) := by
  have step := pow_ten_pos d.exponent
  have digits : (d.digits : ℚ) < 10 ^ 15 := by exact_mod_cast few
  have next := mul_pow_ten_le (i := d.exponent + 1) (j := e) (by omega) (10 ^ 14)
  rw [pow_ten_succ, Nat.cast_pow, Nat.cast_ofNat] at next
  calc d.quanta < 10 ^ 15 * (10 ^ d.exponent * quantaPerUnit) := mul_lt_mul_of_pos_right digits step
    _ = 10 ^ 14 * (10 * (10 ^ d.exponent * quantaPerUnit)) := by ring
    _ ≤ 10 ^ 14 * (10 ^ e * quantaPerUnit) := next

end Decimal

namespace Magnitude

/-- Magnitudes of the same number of quanta are the same. -/
theorem quanta_injective {m m' : Magnitude} (same : m.quanta = m'.quanta) : m = m' := by
  have first := ofQuotient?_quanta m
  rw [same, ofQuotient?_quanta m'] at first
  exact (Option.some.inj first).symm

theorem quanta_lt_overflowQuanta (m : Magnitude) : (m.quanta : ℚ) < overflowQuanta := by
  have beyond : greatest.quanta < overflowQuanta := by decide +kernel
  exact_mod_cast m.quanta_le_greatest.trans_lt beyond

/-- The steps of a grid are either narrower or wider than a quantum. -/
theorem gridStep_lt_one_or (m : Magnitude) (count : ℕ) : m.gridStep count < 1 ∨ 1 < m.gridStep count := by
  rcases lt_or_ge (m.gridExponent count) (-323) with fine | coarse
  · have narrow := mul_pow_ten_lt (k := m.gridExponent count) (a := 0) (b := 324) (c := 1) (n := 1)
      (by decide +kernel) (by omega)
    rw [Nat.cast_one, one_mul] at narrow
    exact .inl narrow
  · have wide := lt_mul_pow_ten (k := m.gridExponent count) (a := 0) (b := 323) (c := 1) (n := 1)
      (by decide +kernel) (by omega)
    rw [Nat.cast_one, one_mul] at wide
    exact .inr wide

section Reread

variable {m : Magnitude}

/-- Where the steps are narrower than a quantum, no other magnitude is as near to the digits. -/
theorem significant_read_of_narrow (h : m.quanta ≠ 0) (narrow : m.gridStep 15 < 1) :
    (m.significant 15).toMagnitude? = some m := by
  have step := m.gridStep_pos 15
  have near := (m.nearest_significant 15).distance_le
  have shown : |(m.significant 15).quanta - m.quanta| < 1 / 2 := by
    rw [quanta_significant, abs_sub_comm, abs_sub_mul step]
    linarith [mul_le_mul_of_nonneg_right near step.le]
  cases read : (m.significant 15).toMagnitude? with
  | none =>
    -- so narrow a grid is far from the greatest magnitudes
    have beyond := Decimal.le_of_toMagnitude?_eq_none read
    have large : (10 ^ 16 : ℚ) < overflowQuanta := by
      exact_mod_cast (by decide +kernel : 10 ^ 16 < overflowQuanta)
    obtain ⟨-, above⟩ := grid_bounds h
    obtain ⟨-, most⟩ := abs_lt.1 shown
    linarith
  | some m' =>
    have nearer := Decimal.distance_le_distance read m
    have apart : |(m'.quanta : ℚ) - m.quanta| < 1 :=
      calc |(m'.quanta : ℚ) - m.quanta|
          ≤ |m'.quanta - (m.significant 15).quanta| + |(m.significant 15).quanta - m.quanta| :=
            abs_sub_le _ _ _
        _ < 1 := by
          rw [abs_sub_comm]
          linarith
    have same : m'.quanta = m.quanta := by
      by_contra different
      exact absurd (one_le_abs_sub different) (not_le.2 apart)
    rw [quanta_injective same]

variable {d : Decimal}

/-- A decimal of few digits is read with an error of less than half a step, if steps are wide. -/
theorem distance_lt_of_wide (h : m.quanta ≠ 0) (wide : 1 < m.gridStep 15)
    (read : d.toMagnitude? = some m) : |d.quanta - m.quanta| < m.gridStep 15 / 2 := by
  rcases Decimal.distance_le read with ⟨-, half⟩ | precise
  · linarith
  · obtain ⟨-, above⟩ := grid_bounds h
    have most := le_abs_self (d.quanta - m.quanta)
    linarith

/-- A power of ten between a decimal and the magnitude that it is read as is read as that one too. -/
theorem read_of_between {p : Decimal} (read : d.toMagnitude? = some m) (below : d.quanta < p.quanta)
    (above : p.quanta ≤ m.quanta) : p.toMagnitude? = some m := by
  cases other : p.toMagnitude? with
  | none =>
    have beyond := Decimal.le_of_toMagnitude?_eq_none other
    exact absurd m.quanta_lt_overflowQuanta (not_lt.2 (beyond.trans above))
  | some m' =>
    have near := Decimal.distance_le_distance read m'
    have nearer := Decimal.distance_le_distance other m
    rw [abs_of_nonpos (by linarith)] at near
    rw [abs_of_nonpos (a := p.quanta - m.quanta) (by linarith)] at nearer
    obtain ⟨low, high⟩ := abs_le.1 nearer
    have same : (m'.quanta : ℚ) = m.quanta := by
      rcases le_total d.quanta m'.quanta with upper | lower
      · rw [abs_of_nonpos (by linarith)] at near
        linarith
      · rw [abs_of_nonneg (by linarith)] at near
        linarith
    have same : m'.quanta = m.quanta := by exact_mod_cast same
    rw [quanta_injective same]

/-- A magnitude that a decimal of at most fifteen digits is read as is read from its own digits. -/
theorem significant_read (h : m.quanta ≠ 0) (few : d.digits < 10 ^ 15)
    (read : d.toMagnitude? = some m) : (m.significant 15).toMagnitude? = some m := by
  rcases m.gridStep_lt_one_or 15 with narrow | wide
  · exact significant_read_of_narrow h narrow
  have step := m.gridStep_pos 15
  have near := distance_lt_of_wide h wide read
  -- a point of the grid within half a step is what the digits are
  have shown {n : ℕ} (close : |(m.quanta : ℚ) - n * m.gridStep 15| < m.gridStep 15 / 2) :
      m.significant 15 = ⟨n, m.gridExponent 15⟩ := by
    apply significant_eq
    left
    rw [abs_sub_mul step] at close
    exact lt_of_mul_lt_mul_right (by linarith) step.le
  rcases le_or_gt (m.gridExponent 15) d.exponent with coarse | fine
  · obtain ⟨n, same, value⟩ := d.exists_sameValue coarse
    rw [value, abs_sub_comm] at near
    rw [shown near, ← Decimal.toMagnitude?_eq_of_sameValue same, read]
  · have below := d.quanta_lt few fine
    obtain ⟨above, -⟩ := grid_bounds h
    have power : Decimal.quanta ⟨10 ^ 14, m.gridExponent 15⟩ = 10 ^ 14 * m.gridStep 15 := by
      rw [Decimal.quanta_eq_mul, Nat.cast_pow, Nat.cast_ofNat, gridStep]
    rw [shown (n := 10 ^ 14)]
    · apply read_of_between read
      · rw [power]
        exact below
      · rw [power]
        exact above
    · obtain ⟨most, -⟩ := abs_lt.1 near
      rw [Nat.cast_pow, Nat.cast_ofNat, abs_of_nonneg (by linarith)]
      unfold gridStep at *
      linarith

end Reread

end Magnitude

namespace Binary64

/-- The number nearest to a decimal of at most fifteen digits, which may be beyond all finite ones. -/
def FewDigits (x : Binary64) : Prop :=
  ∃ (s : Sign) (d : Decimal), d.digits < 10 ^ 15 ∧ x = .ofDecimal s d

theorem fewDigits_infinite (s : Sign) : FewDigits (.infinite s) :=
  ⟨s, ⟨1, 401⟩, by decide, rfl⟩

theorem fewDigits_zero : FewDigits .zero :=
  ⟨.positive, ⟨0, 0⟩, by decide, rfl⟩

/-- Nines that are rounded up to one and fifteen zeros are one digit. -/
theorem fewDigits_significant (s : Sign) {m : Magnitude} (h : m.quanta ≠ 0) :
    FewDigits (.ofDecimal s (m.significant 15)) := by
  obtain ⟨-, most⟩ := Magnitude.significant_bounds h
  rcases most.lt_or_eq with few | raised
  · exact ⟨s, m.significant 15, few, rfl⟩
  · have same : Decimal.SameValue ⟨1, (m.significant 15).exponent + 15⟩ (m.significant 15) :=
      ⟨15, 0, by simp [Decimal.shift, raised]⟩
    refine ⟨s, ⟨1, (m.significant 15).exponent + 15⟩, by norm_num, ?_⟩
    rw [ofDecimal, ofDecimal, Decimal.toMagnitude?_eq_of_sameValue same]

end Binary64

end Calculator
