import Calculator.Proofs.Number.Decade
import Calculator.Decimal.Notation

/-!
# Displayed numbers are short

A number on the display has sixteen digits at most, and its decade is between those of the least and
the greatest magnitude, so its text is far below every limit on the length of an expression.
-/
namespace Calculator

theorem digitCount_le {n k : ℕ} (h : n < 10 ^ k) (positive : 0 < k) : digitCount n ≤ k :=
  (Nat.length_toDigits_le_iff (by decide) positive).2 h

namespace Decimal

/-- Trimming makes digits fewer and the exponent greater, by less than the number of its steps. -/
theorem trim_go_bounds (steps digits : ℕ) (exponent : ℤ) :
    (trim.go steps digits exponent).digits ≤ digits ∧
      exponent ≤ (trim.go steps digits exponent).exponent ∧
      (trim.go steps digits exponent).exponent ≤ exponent + steps := by
  induction steps generalizing digits exponent with
  | zero =>
    simp only [trim.go]
    omega
  | succ steps ih =>
    unfold trim.go
    split
    · have further := ih (digits / 10) (exponent + 1)
      omega
    · dsimp only
      omega

end Decimal

namespace NumberFormat

variable (f : NumberFormat) (digits : List Char)

theorem length_positional (point : ℤ) :
    (f.positional digits point).length ≤ digits.length + point.natAbs + 2 := by
  have wholeEnd : f.wholeEnd.length ≤ 2 := by
    unfold wholeEnd
    split <;> decide
  unfold positional
  split
  · simp only [List.length_append, List.length_cons, List.length_nil, List.length_replicate,
      Int.natAbs_negSucc]
    omega
  · simp only [List.length_append, List.length_cons, List.length_nil]
    omega
  · simp only [Int.ofNat_eq_natCast, Int.natAbs_natCast]
    split
    · simp only [List.length_append, List.length_replicate]
      omega
    · simp only [List.length_append, List.length_cons, List.length_take, List.length_drop]
      omega

theorem length_scientific (exponent : ℤ) :
    (f.scientific digits exponent).length ≤ digits.length + digitCount exponent.natAbs + 5 := by
  unfold scientific power digitCount
  dsimp only
  split <;>
    simp only [List.length_append, List.length_cons, List.length_nil, List.length_take,
      List.length_drop, List.length_replicate] <;>
    omega

/-- A decimal with few digits and a moderate exponent is displayed by a short text. -/
theorem length_decimalText {d : Decimal} (few : d.digits < 10 ^ 16) (small : -400 ≤ d.exponent)
    (large : d.exponent ≤ 400) : (display.decimalText d).length ≤ 35 := by
  have steps : d.digits.log2 ≤ 53 := by
    by_contra many
    have zero : d.digits ≠ 0 := by
      intro zero
      rw [zero] at many
      exact many (by decide)
    have power := Nat.log2_self_le zero
    have least : 2 ^ 54 ≤ 2 ^ d.digits.log2 := Nat.pow_le_pow_right (by decide) (by omega)
    norm_num at few least
    omega
  obtain ⟨fewer, least, most⟩ := Decimal.trim_go_bounds d.digits.log2 d.digits d.exponent
  have count : digitCount d.trim.digits ≤ 16 :=
    digitCount_le (fewer.trans_lt few) (by decide)
  have counted := digitCount_pos d.trim.digits
  have leading : -400 ≤ d.trim.leadingExponent ∧ d.trim.leadingExponent ≤ 500 := by
    unfold Decimal.leadingExponent
    have exponent : d.trim.exponent = (Decimal.trim.go d.digits.log2 d.digits d.exponent).exponent :=
      rfl
    omega
  unfold decimalText
  obtain ⟨exponent, chosen⟩ : ∃ exponent,
      exponent = if d.trim.digits = 0 then 0 else d.trim.leadingExponent := ⟨_, rfl⟩
  simp only [← chosen]
  have bound : -400 ≤ exponent ∧ exponent ≤ 500 := by
    split at chosen <;> omega
  split
  · rename_i positional
    have length := display.length_positional (Nat.toDigits 10 d.trim.digits) (exponent + 1)
    have least : leastPositional = -4 := rfl
    have below : display.positionalBelow = 15 := rfl
    unfold digitCount at count
    omega
  · have length := display.length_scientific (Nat.toDigits 10 d.trim.digits) exponent
    have power : digitCount exponent.natAbs ≤ 3 := digitCount_le (by omega) (by decide)
    unfold digitCount at count power length
    omega

theorem length_signed (s : Sign) (text : List Char) : (signed s text).length ≤ text.length + 1 := by
  cases s with
  | positive => exact Nat.le_succ _
  | negative => exact Nat.le_refl _

/-- Whatever number is displayed, its text is short. -/
theorem length_display (x : Binary64) : (display.text x).length ≤ 36 := by
  cases x with
  | nan => decide
  | infinite s => cases s <;> decide
  | finite s m =>
    have body : (display.decimalText (display.digitsOf m)).length ≤ 35 := by
      by_cases zero : m.quanta = 0
      · rw [digitsOf, if_pos zero]
        decide
      · have digits : display.digitsOf m = m.significant 15 := if_neg zero
        obtain ⟨-, most⟩ := Magnitude.significant_bounds zero
        obtain ⟨least, greatest⟩ := Magnitude.decade_range zero
        have exponent : (m.significant 15).exponent = m.decade + 1 - (15 : ℕ) := rfl
        rw [digits]
        exact length_decimalText (by omega) (by omega) (by omega)
    simp only [text]
    split
    · omega
    · have signed := length_signed s (display.decimalText (display.digitsOf m))
      omega

end NumberFormat

end Calculator
