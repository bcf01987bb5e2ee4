import Calculator.Proofs.Number.Trimmed

/-!
# Whole numbers on the display

A whole number with at most fifteen digits is displayed by just these digits: rounding to fifteen of
them is exact, and the zeros that are trimmed are written again.
-/
namespace Calculator

theorem toDigits_mul_ten {n : Nat} (h : 0 < n) :
    Nat.toDigits 10 (n * 10) = Nat.toDigits 10 n ++ ['0'] := by
  rw [Nat.toDigits_of_base_le (by decide) (by omega), Nat.mul_div_cancel _ (by decide),
    Nat.mul_mod_left]
  rfl

/-- Behind the digits of a number a power of ten adds zeros. -/
theorem toDigits_mul_pow {n : Nat} (h : 0 < n) (zeros : Nat) :
    Nat.toDigits 10 (n * Nat.pow 10 zeros) =
      Nat.toDigits 10 n ++ List.replicate zeros '0' := by
  induction zeros with
  | zero => simp
  | succ zeros ih =>
    have positive : 0 < n * Nat.pow 10 zeros := Nat.mul_pos h (Nat.pow_pos (by decide))
    have split : n * Nat.pow 10 (zeros + 1) = n * Nat.pow 10 zeros * 10 := by
      simp only [Nat.pow_eq, Nat.pow_succ, Nat.mul_assoc]
    rw [split, toDigits_mul_ten positive, ih, List.append_assoc, ← List.replicate_succ']

namespace Decimal

/-- Trimming takes zeros away and nothing else. -/
theorem exists_shift_trim_go (steps digits : Nat) (exponent : Int) :
    ∃ zeros, (trim.go steps digits exponent).shift zeros = ⟨digits, exponent⟩ := by
  induction steps generalizing digits exponent with
  | zero => exact ⟨0, by simp [trim.go, shift]⟩
  | succ steps ih =>
    unfold trim.go
    split
    · rename_i ends
      obtain ⟨zeros, same⟩ := ih (digits / 10) (exponent + 1)
      refine ⟨zeros + 1, ?_⟩
      rw [← shift_shift, same]
      simp only [shift, mk.injEq, show Nat.pow 10 1 = 10 from rfl]
      omega
    · exact ⟨0, by simp [shift]⟩

end Decimal

namespace NumberFormat

/-- A whole number below the first one with a power of ten is written by its digits. -/
theorem decimalText_whole {n : Nat} (positive : 0 < n) (few : digitCount n ≤ 15) :
    display.decimalText ⟨n, 0⟩ = Nat.toDigits 10 n := by
  obtain ⟨zeros, same⟩ := Decimal.exists_shift_trim_go n.log2 n 0
  have trimmed : (Decimal.mk n 0).trim.shift zeros = ⟨n, 0⟩ := same
  unfold decimalText
  generalize (Decimal.mk n 0).trim = d at trimmed
  obtain ⟨k, exponent⟩ := d
  simp only [Decimal.shift, Decimal.mk.injEq] at trimmed
  obtain ⟨digits, point⟩ := trimmed
  obtain rfl : exponent = zeros := by omega
  have some : 0 < k := Nat.pos_of_mul_pos_right (digits ▸ positive)
  have written : Nat.toDigits 10 n = Nat.toDigits 10 k ++ List.replicate zeros '0' := by
    rw [← digits, toDigits_mul_pow some]
  have length : digitCount n = digitCount k + zeros := by
    rw [digitCount, written, List.length_append, List.length_replicate]
    rfl
  have counted : 0 < digitCount k := Nat.length_toDigits_pos
  obtain ⟨p, places⟩ : ∃ p, digitCount k + zeros = p + 1 := ⟨digitCount k + zeros - 1, by omega⟩
  have leading : Decimal.leadingExponent ⟨k, zeros⟩ + 1 = Int.ofNat (p + 1) := by
    simp only [Decimal.leadingExponent, Int.ofNat_eq_natCast]
    omega
  have positional : leastPositional ≤ Decimal.leadingExponent ⟨k, zeros⟩ ∧
      Decimal.leadingExponent ⟨k, zeros⟩ < display.positionalBelow := by
    simp only [Int.ofNat_eq_natCast] at leading
    have least : leastPositional = -4 := rfl
    have below : display.positionalBelow = 15 := rfl
    omega
  have whole : (Nat.toDigits 10 k).length ≤ p + 1 := by
    unfold digitCount at places
    omega
  have fill : p + 1 - (Nat.toDigits 10 k).length = zeros := by
    unfold digitCount at places
    omega
  have text : display.positional (Nat.toDigits 10 k) (Int.ofNat (p + 1)) =
      Nat.toDigits 10 k ++ List.replicate (p + 1 - (Nat.toDigits 10 k).length) '0' ++ [] :=
    if_pos whole
  simp only [if_neg (Nat.ne_of_gt some), if_pos positional, leading]
  rw [text, fill, written, List.append_nil]

end NumberFormat

namespace Magnitude

theorem quotientBy_ofNat (m : Magnitude) (e : Nat) :
    m.quotientBy (.ofNat e) = (m.quanta, quantaPerUnit * Nat.pow 10 e) := rfl

theorem quotientBy_negSucc (m : Magnitude) (e : Nat) :
    m.quotientBy (.negSucc e) = (m.quanta * Nat.pow 10 (e + 1), quantaPerUnit) := rfl

/-- Fifteen digits of a whole number with no more of them are exact. -/
theorem significant_whole {m : Magnitude} {n : Nat} (whole : m.quanta = n * quantaPerUnit)
    (positive : 0 < n) (few : digitCount n ≤ 15) : (m.significant 15).SameValue ⟨n, 0⟩ := by
  have decade : m.decade = (digitCount n : Int) - 1 := by
    have quotient : m.quanta / quantaPerUnit = n := by rw [whole, Nat.mul_div_cancel _ quantaPerUnit_pos]
    rw [Magnitude.decade, quotient]
    exact if_pos (Nat.ne_of_gt positive)
  have exponent : m.gridExponent 15 = -((15 - digitCount n : Nat) : Int) := by
    rw [gridExponent, decade]
    omega
  have digits : (m.significant 15).digits = n * Nat.pow 10 (15 - digitCount n) := by
    have rounded : (m.significant 15).digits =
        roundDiv (m.quotientBy (m.gridExponent 15)).1 (m.quotientBy (m.gridExponent 15)).2 := rfl
    rw [rounded, exponent]
    cases 15 - digitCount n with
    | zero =>
      rw [show -((0 : Nat) : Int) = Int.ofNat 0 from rfl, quotientBy_ofNat, whole,
        show Nat.pow 10 0 = 1 from rfl, Nat.mul_one, Nat.mul_one, roundDiv_mul_self _ quantaPerUnit_pos]
    | succ zeros =>
      rw [show -((zeros + 1 : Nat) : Int) = Int.negSucc zeros from rfl, quotientBy_negSucc, whole,
        Nat.mul_right_comm, roundDiv_mul_self _ quantaPerUnit_pos]
  have shifted : m.significant 15 = Decimal.shift ⟨n, 0⟩ (15 - digitCount n) := by
    have parts : m.significant 15 = ⟨(m.significant 15).digits, m.gridExponent 15⟩ := rfl
    rw [parts, digits, exponent, Decimal.shift]
    simp
  rw [shifted]
  exact Decimal.sameValue_shift _ _

end Magnitude

theorem Sign.ofInt_apply (s : Sign) {n : Nat} (positive : 0 < n) : Sign.ofInt (s.apply n) = s := by
  cases s <;> simp only [Sign.apply, Sign.ofInt]
  · exact if_neg (by omega)
  · exact if_pos (by omega)

/-- The digits of an integer, after a minus sign if it is less than zero. -/
def wholeText (i : Int) : List Char :=
  NumberFormat.signed (Sign.ofInt i) (Nat.toDigits 10 i.natAbs)

/-- A whole number with at most fifteen digits is displayed as the integer that it is. -/
theorem display_whole {s : Sign} {m : Magnitude} {n : Nat} (whole : m.quanta = n * quantaPerUnit)
    (few : n < Nat.pow 10 15) : NumberFormat.display.text (.finite s m) = wholeText (s.apply n) := by
  have digits : NumberFormat.display.digitsOf m = if m.quanta = 0 then ⟨0, 0⟩ else m.significant 15 :=
    rfl
  rcases Nat.eq_zero_or_pos n with rfl | positive
  · have zero : m.quanta = 0 := by rw [whole, Nat.zero_mul]
    rw [NumberFormat.text, digits, if_pos zero]
    simp only [zero, true_and]
    cases s <;> decide
  · have nonzero : m.quanta ≠ 0 := by
      rw [whole]
      exact Nat.mul_ne_zero (Nat.ne_of_gt positive) (Nat.ne_of_gt quantaPerUnit_pos)
    have count : digitCount n ≤ 15 := (Nat.length_toDigits_le_iff (by decide) (by decide)).2 few
    have text : NumberFormat.display.decimalText (m.significant 15) = Nat.toDigits 10 n := by
      rw [NumberFormat.decimalText_eq_of_sameValue _ (Magnitude.significant_whole whole positive count),
        NumberFormat.decimalText_whole positive count]
    rw [NumberFormat.text, digits, if_neg nonzero, text, wholeText, Sign.natAbs_apply,
      Sign.ofInt_apply s positive]
    exact if_neg fun zero => nonzero zero.1

end Calculator
