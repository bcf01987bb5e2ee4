import Calculator.Decimal.Notation
import Calculator.Proofs.Number.Digits
import Calculator.Proofs.Number.Scale
import Calculator.Proofs.Number.Scan

/-!
# Written decimals are numerals

Whatever way a decimal is written, positionally or with a power of ten, its text is that of a numeral
of the same value, provided that a power of ten is marked as numerals mark it.
-/
namespace Calculator

namespace Decimal

theorem shift_shift (d : Decimal) (i j : Nat) : (d.shift i).shift j = d.shift (i + j) := by
  simp only [shift, mk.injEq]
  constructor
  · rw [Nat.mul_assoc]
    simp only [Nat.pow_eq, ← Nat.pow_add]
  · omega

theorem SameValue.refl (d : Decimal) : d.SameValue d :=
  ⟨0, 0, rfl⟩

theorem SameValue.symm {d e : Decimal} (h : d.SameValue e) : e.SameValue d := by
  obtain ⟨i, j, same⟩ := h
  exact ⟨j, i, same.symm⟩

theorem SameValue.trans {d e f : Decimal} (h₁ : d.SameValue e) (h₂ : e.SameValue f) :
    d.SameValue f := by
  obtain ⟨i, j, first⟩ := h₁
  obtain ⟨k, l, second⟩ := h₂
  refine ⟨i + k, l + j, ?_⟩
  calc d.shift (i + k) = (e.shift j).shift k := by rw [← shift_shift, first]
    _ = (e.shift k).shift j := by rw [shift_shift, shift_shift, Nat.add_comm]
    _ = f.shift (l + j) := by rw [second, shift_shift]

theorem sameValue_shift (d : Decimal) (zeros : Nat) : (d.shift zeros).SameValue d :=
  ⟨0, zeros, by rw [shift_shift]; rfl⟩

/-- All ways to write zero have one value. -/
theorem sameValue_zero (i j : Int) : SameValue ⟨0, i⟩ ⟨0, j⟩ := by
  refine ⟨(i - j).toNat, (j - i).toNat, ?_⟩
  simp only [shift, Nat.zero_mul, mk.injEq, true_and]
  omega

theorem trim_go_sameValue (steps digits : Nat) (exponent : Int) :
    (trim.go steps digits exponent).SameValue ⟨digits, exponent⟩ := by
  induction steps generalizing digits exponent with
  | zero => exact .refl _
  | succ steps ih =>
    unfold trim.go
    split
    · rename_i ends
      have back : shift ⟨digits / 10, exponent + 1⟩ 1 = ⟨digits, exponent⟩ := by
        simp only [shift, mk.injEq, show Nat.pow 10 1 = 10 from rfl]
        constructor <;> omega
      have step := sameValue_shift ⟨digits / 10, exponent + 1⟩ 1
      rw [back] at step
      exact (ih _ _).trans step.symm
    · exact .refl _

theorem trim_sameValue (d : Decimal) : d.trim.SameValue d :=
  trim_go_sameValue _ _ _

end Decimal

namespace NumberFormat

open Digit

theorem number_zeros_append (count : Nat) (digits : List Digit) :
    number (List.replicate count zero ++ digits) = number digits := by
  rw [number_append, number_zeros zero rfl, Nat.zero_mul, Nat.zero_add]

theorem number_append_zeros (digits : List Digit) (count : Nat) :
    number (digits ++ List.replicate count zero) = number digits * Nat.pow 10 count := by
  rw [number_append, number_zeros zero rfl, List.length_replicate, Nat.add_zero]

/-- Digits that are written positionally form a numeral. -/
theorem exists_positional (f : NumberFormat) (digits : List Digit) (h : digits ≠ []) (point : Int) :
    ∃ n : Numeral, n.text = f.positional (Digit.text digits) point ∧
      n.decimal.SameValue ⟨number digits, point - digits.length⟩ := by
  match point with
  | .negSucc p =>
    refine ⟨⟨[zero], some (List.replicate (p + 1) zero ++ digits), none, by simp⟩, ?_, ?_⟩
    · simp only [Numeral.text, Numeral.fractionText, Numeral.powerText, positional, text_append,
        text_zeros, List.append_nil]
      rfl
    · have value : number ([zero] ++ (List.replicate (p + 1) zero ++ digits)) = number digits := by
        rw [number_append, number_zeros_append]
        simp [number, zero, ofNat]
      simp only [Numeral.decimal, Option.getD_some, value, Numeral.powerValue,
        List.length_append, List.length_replicate]
      rw [show (0 : Int) - ((p + 1 + digits.length : Nat) : Int) =
        Int.negSucc p - (digits.length : Int) by omega]
      exact .refl _
  | .ofNat 0 =>
    refine ⟨⟨[zero], some digits, none, by simp⟩, ?_, ?_⟩
    · simp only [Numeral.text, Numeral.fractionText, Numeral.powerText, positional, List.append_nil]
      rfl
    · have value : number ([zero] ++ digits) = number digits := number_zeros_append 1 digits
      simp only [Numeral.decimal, Option.getD_some, value, Numeral.powerValue]
      exact .refl _
  | .ofNat (p + 1) =>
    by_cases short : digits.length ≤ p + 1
    · have whole : number (digits ++ List.replicate (p + 1 - digits.length) zero) =
          number digits * Nat.pow 10 (p + 1 - digits.length) := number_append_zeros _ _
      have same := Decimal.sameValue_shift ⟨number digits, Int.ofNat (p + 1) - digits.length⟩
        (p + 1 - digits.length)
      have exponent : Int.ofNat (p + 1) - (digits.length : Int) -
          ((p + 1 - digits.length : Nat) : Int) = 0 := by
        simp only [Int.ofNat_eq_natCast]
        omega
      simp only [Decimal.shift, exponent] at same
      cases zeros : f.pointZero with
      | false =>
        refine ⟨⟨digits ++ List.replicate (p + 1 - digits.length) zero, none, none, by simp [h]⟩,
          ?_, ?_⟩
        · simp only [Numeral.text, Numeral.fractionText, Numeral.powerText, positional,
            length_text, if_pos short, wholeEnd, zeros, text_append, text_zeros, List.append_nil]
          simp
        · simp only [Numeral.decimal, Option.getD_none, List.append_nil, whole, Numeral.powerValue]
          exact same
      | true =>
        refine ⟨⟨digits ++ List.replicate (p + 1 - digits.length) zero, some [zero], none,
          by simp [h]⟩, ?_, ?_⟩
        · simp only [Numeral.text, Numeral.fractionText, Numeral.powerText, positional,
            length_text, if_pos short, wholeEnd, zeros, text_append, text_zeros, List.append_nil]
          rfl
        · have further := Decimal.sameValue_shift
            ⟨number digits * Nat.pow 10 (p + 1 - digits.length), 0⟩ 1
          have value : number (digits ++ List.replicate (p + 1 - digits.length) zero ++ [zero]) =
              number digits * Nat.pow 10 (p + 1 - digits.length) * Nat.pow 10 1 := by
            rw [number_append, whole]
            rfl
          simp only [Numeral.decimal, Option.getD_some, value, Numeral.powerValue]
          exact further.trans same
    · refine ⟨⟨digits.take (p + 1), some (digits.drop (p + 1)), none, by simp [h]⟩, ?_, ?_⟩
      · simp only [Numeral.text, Numeral.fractionText, Numeral.powerText, positional, length_text,
          if_neg short, List.append_nil]
        simp [Digit.text, List.map_take, List.map_drop]
      · have split : number (digits.take (p + 1) ++ digits.drop (p + 1)) = number digits := by
          rw [List.take_append_drop]
        simp only [Numeral.decimal, Option.getD_some, split, Numeral.powerValue, List.length_drop]
        rw [show (0 : Int) - ((digits.length - (p + 1) : Nat) : Int) =
          Int.ofNat (p + 1) - (digits.length : Int) by
            simp only [Int.ofNat_eq_natCast]
            omega]
        exact .refl _

/-- The sign that is written before an exponent. -/
def exponentSign (exponent : Int) : Sign :=
  if exponent < 0 then .negative else .positive

/-- A power of ten is written as numerals have it. -/
theorem exists_power (f : NumberFormat) (mark : f.exponentMark = 'E') (exponent : Int) :
    ∃ p : PowerOfTen, p.text = f.power exponent ∧ p.value = exponent := by
  obtain ⟨digits, written, value⟩ := exists_digits exponent.natAbs
  have nonempty : digits ≠ [] := by
    intro empty
    rw [empty] at written
    exact Nat.toDigits_ne_nil written.symm
  refine ⟨⟨some (exponentSign exponent), List.replicate (2 - digits.length) zero ++ digits,
    by simp [nonempty]⟩, ?_, ?_⟩
  · simp only [PowerOfTen.text, power, mark, ← written, length_text, text_append, text_zeros]
    unfold exponentSign
    split <;> rfl
  · simp only [PowerOfTen.value, Option.getD_some, number_zeros_append, value]
    unfold exponentSign
    split <;> simp only [Sign.apply] <;> omega

/-- Digits that are written with a power of ten form a numeral. -/
theorem exists_scientific (f : NumberFormat) (mark : f.exponentMark = 'E') (digits : List Digit)
    (h : digits ≠ []) (exponent : Int) :
    ∃ n : Numeral, n.text = f.scientific (Digit.text digits) exponent ∧
      n.decimal = ⟨number digits, exponent + 1 - digits.length⟩ := by
  obtain ⟨p, written, value⟩ := exists_power f mark exponent
  match digits, h with
  | [d], _ =>
    refine ⟨⟨[d], none, some p, by simp⟩, ?_, ?_⟩
    · simp only [Numeral.text, Numeral.fractionText, Numeral.powerText, scientific, written]
      rfl
    · simp only [Numeral.decimal, Numeral.powerValue, value, Option.getD_none, List.append_nil,
        Decimal.mk.injEq, true_and, List.length_nil, List.length_singleton]
      omega
  | d :: d' :: digits, _ =>
    refine ⟨⟨[d], some (d' :: digits), some p, by simp⟩, ?_, ?_⟩
    · simp only [Numeral.text, Numeral.fractionText, Numeral.powerText, scientific, written,
        length_text]
      simp [Digit.text]
    · simp only [Numeral.decimal, Numeral.powerValue, value, Option.getD_some,
        List.singleton_append, Decimal.mk.injEq, true_and, List.length_cons]
      omega

/-- A written decimal is a numeral of its value. -/
theorem exists_numeral (f : NumberFormat) (mark : f.exponentMark = 'E') (d : Decimal) :
    ∃ n : Numeral, n.text = f.decimalText d ∧ n.decimal.SameValue d := by
  obtain ⟨digits, written, value⟩ := exists_digits d.trim.digits
  have nonempty : digits ≠ [] := by
    intro empty
    rw [empty] at written
    exact Nat.toDigits_ne_nil written.symm
  have count : digitCount d.trim.digits = digits.length := by
    rw [digitCount, ← written, length_text]
  have trimmed : ∀ leading : Int,
      leading = (if d.trim.digits = 0 then 0 else d.trim.leadingExponent) →
      Decimal.SameValue ⟨number digits, leading + 1 - digits.length⟩ d := by
    rintro leading rfl
    refine Decimal.SameValue.trans ?_ d.trim_sameValue
    rw [value]
    split
    · rename_i zero
      have same := Decimal.sameValue_zero (0 + 1 - digits.length) d.trim.exponent
      rw [zero]
      rw [show d.trim = ⟨0, d.trim.exponent⟩ by rw [← zero]]
      exact same
    · rw [Decimal.leadingExponent, count,
        show d.trim.exponent + (digits.length : Int) - 1 + 1 - digits.length = d.trim.exponent
          by omega]
      exact .refl _
  obtain ⟨leading, chosen⟩ : ∃ leading,
      leading = if d.trim.digits = 0 then 0 else d.trim.leadingExponent := ⟨_, rfl⟩
  unfold decimalText
  simp only [← written, ← chosen]
  split
  · obtain ⟨n, text, same⟩ := exists_positional f digits nonempty (leading + 1)
    exact ⟨n, text, same.trans (trimmed leading chosen)⟩
  · obtain ⟨n, text, exact⟩ := exists_scientific f mark digits nonempty leading
    refine ⟨n, text, ?_⟩
    rw [exact]
    exact trimmed leading chosen

/-- The literal of a magnitude is a numeral that is read back as it. -/
theorem exists_literal (m : Magnitude) :
    ∃ n : Numeral, n.text = literal.decimalText (literal.digitsOf m) ∧
      n.value = .finite .positive m := by
  obtain ⟨n, text, same⟩ := exists_numeral literal rfl (literal.digitsOf m)
  refine ⟨n, text, ?_⟩
  have reads : (literal.digitsOf m).toMagnitude? = some m := by
    unfold digitsOf
    split
    · rename_i zero
      rw [Magnitude.eq_zero_of_quanta zero]
      rfl
    · exact m.readsBack_shortest
  rw [Numeral.value, Binary64.ofDecimal, Decimal.toMagnitude?_eq_of_sameValue same, reads]

/-- A literal is a name for what is not finite, and else a numeral, after a sign if there is one. -/
theorem literal_cases (x : Binary64) :
    (x = .nan ∧ literal.text x = "NaN".toList) ∨
      (∃ s, x = .infinite s ∧ literal.text x = signed s "Infinity".toList) ∨
      ∃ s m, ∃ n : Numeral, x = .finite s m ∧ literal.text x = signed s n.text ∧
        n.value = .finite .positive m := by
  cases x with
  | nan => exact .inl ⟨rfl, rfl⟩
  | infinite s => exact .inr (.inl ⟨s, rfl, rfl⟩)
  | finite s m =>
    obtain ⟨n, written, value⟩ := exists_literal m
    refine .inr (.inr ⟨s, m, n, rfl, ?_, value⟩)
    rw [written]
    exact if_neg (fun h => h.2 rfl)

end NumberFormat

end Calculator
