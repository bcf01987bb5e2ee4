import Calculator.Proofs.Number.Written

/-!
# Decimals of one value are written alike

Zeros at the end of the digits are trimmed before a decimal is written, and without them a value has
only one decimal. So the text of a decimal is a matter of its value.
-/
namespace Calculator

namespace Decimal

/-- Every step of trimming leaves less than half of the digits, so there are enough steps. -/
theorem trim_go_ends {steps digits : Nat} (enough : digits < Nat.pow 2 (steps + 1))
    (exponent : Int) :
    (trim.go steps digits exponent).digits = 0 ∨
      (trim.go steps digits exponent).digits % 10 ≠ 0 := by
  induction steps generalizing digits exponent with
  | zero =>
    have single : digits < 2 := enough
    simp only [trim.go]
    omega
  | succ steps ih =>
    unfold trim.go
    split
    · have fewer : digits / 10 < Nat.pow 2 (steps + 1) := by
        rw [Nat.pow_eq] at enough ⊢
        omega
      exact ih fewer _
    · rename_i stop
      by_cases zero : digits = 0
      · exact .inl zero
      · exact .inr fun ends => stop ⟨zero, ends⟩

/-- Trimmed digits do not end in zero, unless there is nothing else. -/
theorem trim_ends (d : Decimal) : d.trim.digits = 0 ∨ d.trim.digits % 10 ≠ 0 :=
  trim_go_ends Nat.lt_log2_self _

section Shifted

variable {d e : Decimal} {i j : Nat}

/-- Digits that do not end in zero have all the zeros of another decimal of their value behind them,
and perhaps more. -/
theorem zeros_le_of_shift_eq (trimmed : d.digits % 10 ≠ 0) (same : d.shift i = e.shift j) :
    j ≤ i := by
  refine Nat.le_of_not_lt fun fewer => trimmed ?_
  obtain ⟨k, rfl⟩ : ∃ k, j = k + 1 + i := ⟨j - i - 1, by omega⟩
  have digits : d.digits * Nat.pow 10 i = e.digits * Nat.pow 10 (k + 1 + i) :=
    congrArg Decimal.digits same
  simp only [Nat.pow_eq, Nat.pow_add 10 (k + 1), ← Nat.mul_assoc] at digits
  rw [Nat.eq_of_mul_eq_mul_right (Nat.pow_pos (by decide)) digits, Nat.pow_succ, ← Nat.mul_assoc]
  exact Nat.mul_mod_left _ _

theorem digits_eq_zero_of_sameValue (same : d.SameValue e) (zero : d.digits = 0) :
    e.digits = 0 := by
  obtain ⟨i, j, same⟩ := same
  have digits : d.digits * Nat.pow 10 i = e.digits * Nat.pow 10 j := congrArg Decimal.digits same
  rw [zero, Nat.zero_mul] at digits
  exact (Nat.mul_eq_zero.1 digits.symm).resolve_right (Nat.ne_of_gt (Nat.pow_pos (by decide)))

/-- A value has only one decimal whose digits do not end in zero. -/
theorem eq_of_sameValue (trimmed : d.digits % 10 ≠ 0) (trimmed' : e.digits % 10 ≠ 0)
    (same : d.SameValue e) : d = e := by
  obtain ⟨i, j, same⟩ := same
  obtain rfl : i = j :=
    Nat.le_antisymm (zeros_le_of_shift_eq trimmed' same.symm) (zeros_le_of_shift_eq trimmed same)
  obtain ⟨digits, exponent⟩ := d
  obtain ⟨digits', exponent'⟩ := e
  simp only [shift, mk.injEq] at same ⊢
  exact ⟨Nat.eq_of_mul_eq_mul_right (Nat.pow_pos (by decide)) same.1, by omega⟩

end Shifted

end Decimal

theorem Numeral.text_injective {n n' : Numeral} (h : n.text = n'.text) : n = n' := by
  have read := Numeral.scan?_text_append n Numeral.stops_nil
  rw [h, Numeral.scan?_text_append n' Numeral.stops_nil] at read
  cases read
  rfl

namespace NumberFormat

/-- Decimals of one value are written alike. -/
theorem decimalText_eq_of_sameValue (f : NumberFormat) {d e : Decimal} (h : d.SameValue e) :
    f.decimalText d = f.decimalText e := by
  have same : d.trim.SameValue e.trim := d.trim_sameValue.trans (h.trans e.trim_sameValue.symm)
  unfold decimalText
  rcases d.trim_ends with zero | trimmed
  · -- the exponent of zero is not written
    simp only [zero, Decimal.digits_eq_zero_of_sameValue same zero, if_true]
  · rcases e.trim_ends with zero' | trimmed'
    · rw [Decimal.digits_eq_zero_of_sameValue same.symm zero'] at trimmed
      exact absurd rfl trimmed
    · rw [Decimal.eq_of_sameValue trimmed trimmed' same]

/-- Decimals that are written alike have one value, because a text is read as one numeral only. -/
theorem sameValue_of_decimalText_eq {f : NumberFormat} (mark : f.exponentMark = 'E') {d e : Decimal}
    (h : f.decimalText d = f.decimalText e) : d.SameValue e := by
  obtain ⟨n, text, same⟩ := f.exists_numeral mark d
  obtain ⟨n', text', same'⟩ := f.exists_numeral mark e
  obtain rfl : n = n' := Numeral.text_injective (by rw [text, text', h])
  exact same.symm.trans same'

end NumberFormat

end Calculator
