import Calculator.Decimal.Basic

/-!
# Decimals of one value

A decimal may be written with further zeros and a smaller exponent. The shortcuts in reading, for
exponents too great or too small to matter, agree with rounding the exact value, so decimals of one
value are read as one number.
-/
namespace Calculator

theorem quantaPerUnit_pos : 0 < quantaPerUnit := by
  decide +kernel

namespace Magnitude

/-- A quotient beyond the greatest magnitude has none. -/
theorem ofQuotient?_eq_none {num den : Nat} (h : 2098 ≤ (num / den).log2) :
    ofQuotient? num den = none := by
  have scale : 2046 ≤ scaleOf (num / den) := by
    unfold scaleOf
    omega
  unfold ofQuotient? ofParts?
  dsimp only
  split
  · rw [dif_neg (by omega)]
  · rw [dif_neg (by omega)]

/-- A quotient below half a quantum vanishes. -/
theorem ofQuotient?_eq_zero {num den : Nat} (h : 2 * num < den) :
    ofQuotient? num den = some .zero := by
  have quotient : num / den = 0 := Nat.div_eq_of_lt (by omega)
  have rest : num % den = num := Nat.mod_eq_of_lt (by omega)
  have rounded : roundDiv num (den * Nat.pow 2 0) = 0 := by
    have same : den * Nat.pow 2 0 = den := Nat.mul_one den
    rw [same]
    simp [roundDiv, quotient, rest, h]
  unfold ofQuotient?
  rw [quotient]
  change (if roundDiv num (den * Nat.pow 2 0) = Nat.pow 2 53 then _
    else ofParts? (roundDiv num (den * Nat.pow 2 0)) 0) = _
  rw [rounded]
  rfl

end Magnitude

namespace Decimal

/-- The magnitude nearest to the exact value of a decimal. -/
def nearest? (d : Decimal) : Option Magnitude :=
  Magnitude.ofQuotient? (d.digits * Nat.pow 10 d.exponent.toNat * quantaPerUnit)
    (Nat.pow 10 (-d.exponent).toNat)

/-- Ten exceeds the third power of two. -/
theorem pow_two_le_pow_ten {k e : Nat} (h : k ≤ 3 * e) : Nat.pow 2 k ≤ Nat.pow 10 e :=
  calc Nat.pow 2 k ≤ Nat.pow 2 (3 * e) := Nat.pow_le_pow_right (by decide) h
    _ = Nat.pow 8 e := Nat.pow_mul 2 3 e
    _ ≤ Nat.pow 10 e := Nat.pow_le_pow_left (by decide) _

/-- The quanta in one are a power of two. -/
theorem quantaPerUnit_eq : ∃ places, places = 1074 ∧ quantaPerUnit = Nat.pow 2 places := by
  refine ⟨1074, rfl, ?_⟩
  unfold quantaPerUnit
  rfl

theorem log2_scaled_ge {digits e k places : Nat} (h : digits ≠ 0) (large : k ≤ 3 * e) :
    k + places ≤ (digits * Nat.pow 10 e * Nat.pow 2 places).log2 := by
  have power : Nat.pow 2 k ≤ digits * Nat.pow 10 e :=
    Nat.le_trans (pow_two_le_pow_ten large) (Nat.le_mul_of_pos_left _ (Nat.pos_of_ne_zero h))
  have product : Nat.pow 2 (k + places) ≤ digits * Nat.pow 10 e * Nat.pow 2 places :=
    calc Nat.pow 2 (k + places) = Nat.pow 2 k * Nat.pow 2 places := Nat.pow_add 2 k places
      _ ≤ digits * Nat.pow 10 e * Nat.pow 2 places := Nat.mul_le_mul_right _ power
  have positive : digits * Nat.pow 10 e * Nat.pow 2 places ≠ 0 :=
    Nat.ne_of_gt (Nat.lt_of_lt_of_le (Nat.two_pow_pos _) product)
  exact (Nat.le_log2 positive).2 product

theorem double_scaled_lt (digits places : Nat) :
    2 * (digits * Nat.pow 2 places) < Nat.pow 2 (digits.log2 + 1 + (places + 1)) := by
  have bits : digits < Nat.pow 2 (digits.log2 + 1) := Nat.lt_log2_self
  calc 2 * (digits * Nat.pow 2 places)
      = digits * (Nat.pow 2 places * 2) := by
        rw [Nat.mul_left_comm, Nat.mul_comm (Nat.pow 2 places)]
    _ < Nat.pow 2 (digits.log2 + 1) * (Nat.pow 2 places * 2) :=
        Nat.mul_lt_mul_of_pos_right bits (Nat.mul_pos (Nat.two_pow_pos _) (by decide))
    _ = Nat.pow 2 (digits.log2 + 1 + (places + 1)) :=
        (Nat.pow_add 2 (digits.log2 + 1) (places + 1)).symm

/-- A number that is not zero, scaled by a great power of ten, is too large. -/
theorem scaled_too_large {digits e : Nat} (h : digits ≠ 0) (large : exponentLimit < e) :
    2098 ≤ (digits * Nat.pow 10 e * quantaPerUnit).log2 := by
  obtain ⟨places, count, quanta⟩ := quantaPerUnit_eq
  have bits : 1024 + places ≤ (digits * Nat.pow 10 e * Nat.pow 2 places).log2 :=
    log2_scaled_ge h (by
      unfold exponentLimit at large
      omega)
  rw [quanta]
  omega

/-- A number divided by a great power of ten is less than half a quantum. -/
theorem double_lt_pow {digits e : Nat} (small : digits.log2 + vanishingBits < 3 * (e + 1)) :
    2 * (digits * quantaPerUnit) < Nat.pow 10 (e + 1) := by
  obtain ⟨places, count, quanta⟩ := quantaPerUnit_eq
  unfold vanishingBits at small
  rw [quanta]
  exact Nat.lt_of_lt_of_le (double_scaled_lt digits places) (pow_two_le_pow_ten (by omega))

theorem ofQuotient?_zero (den : Nat) (h : 0 < den) :
    Magnitude.ofQuotient? 0 den = some .zero :=
  Magnitude.ofQuotient?_eq_zero h

/-- Reading a decimal rounds its exact value. -/
theorem toMagnitude?_eq_nearest? (d : Decimal) : d.toMagnitude? = d.nearest? := by
  obtain ⟨digits, exponent⟩ := d
  cases exponent with
  | ofNat e =>
    have up : (Int.ofNat e).toNat = e := rfl
    have down : (-Int.ofNat e).toNat = 0 := by
      simp only [Int.ofNat_eq_natCast]
      omega
    simp only [toMagnitude?, nearest?, up, down]
    split
    · rename_i zero
      rw [zero, Nat.zero_mul, Nat.zero_mul]
      exact (ofQuotient?_zero _ (by decide)).symm
    · rename_i positive
      split
      · rename_i large
        have quotient := scaled_too_large positive large
        exact (Magnitude.ofQuotient?_eq_none (by
          rw [show Nat.pow 10 0 = 1 from rfl, Nat.div_one]
          exact quotient)).symm
      · rfl
  | negSucc e =>
    have up : (Int.negSucc e).toNat = 0 := rfl
    have down : (-Int.negSucc e).toNat = e + 1 := rfl
    have unscaled : digits * Nat.pow 10 0 * quantaPerUnit = digits * quantaPerUnit := by
      rw [show Nat.pow 10 0 = 1 from rfl, Nat.mul_one]
    rw [toMagnitude?_negSucc]
    simp only [nearest?, up, down, unscaled]
    split
    · rename_i small
      exact (Magnitude.ofQuotient?_eq_zero (double_lt_pow small)).symm
    · rfl

/-- The decimal with further zeros. -/
def shift (d : Decimal) (zeros : Nat) : Decimal :=
  ⟨d.digits * Nat.pow 10 zeros, d.exponent - zeros⟩

theorem nearest?_shift (d : Decimal) (zeros : Nat) : (d.shift zeros).nearest? = d.nearest? := by
  obtain ⟨digits, exponent⟩ := d
  -- numerator and denominator of the shifted decimal are those of the other times one power of ten
  have split : ∃ common : Nat,
      zeros + (exponent - zeros).toNat = exponent.toNat + common ∧
      (-(exponent - zeros)).toNat = (-exponent).toNat + common := by
    refine ⟨zeros + (exponent - zeros).toNat - exponent.toNat, ?_, ?_⟩ <;> omega
  obtain ⟨common, up, down⟩ := split
  have num : digits * Nat.pow 10 zeros * Nat.pow 10 (exponent - zeros).toNat * quantaPerUnit =
      digits * Nat.pow 10 exponent.toNat * quantaPerUnit * Nat.pow 10 common := by
    have powers : Nat.pow 10 zeros * Nat.pow 10 (exponent - zeros).toNat =
        Nat.pow 10 exponent.toNat * Nat.pow 10 common := by
      simp only [Nat.pow_eq, ← Nat.pow_add, up]
    rw [Nat.mul_assoc digits, powers, ← Nat.mul_assoc, Nat.mul_right_comm]
  have den : Nat.pow 10 (-(exponent - zeros)).toNat =
      Nat.pow 10 (-exponent).toNat * Nat.pow 10 common := by
    simp only [Nat.pow_eq, ← Nat.pow_add, down]
  simp only [nearest?, shift, num, den]
  exact Magnitude.ofQuotient?_mul_right _ _ (Nat.pow_pos (by decide))

/-- Two decimals are one decimal with different numbers of zeros. -/
def SameValue (d e : Decimal) : Prop :=
  ∃ i j, d.shift i = e.shift j

theorem toMagnitude?_eq_of_sameValue {d e : Decimal} (h : d.SameValue e) :
    d.toMagnitude? = e.toMagnitude? := by
  obtain ⟨i, j, same⟩ := h
  rw [toMagnitude?_eq_nearest?, toMagnitude?_eq_nearest?, ← nearest?_shift d i, same,
    nearest?_shift]

end Decimal

end Calculator
