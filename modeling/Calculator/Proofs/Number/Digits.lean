import Calculator.Decimal.Basic
import Calculator.Numeral

/-!
# Digits of natural numbers

The decimal digits of a natural number are a run of digits that writes it.
-/
namespace Calculator

namespace Digit

theorem digitValue?_digitChar : ∀ k, k < 10 → digitValue? (Nat.digitChar k) = some k := by
  decide +kernel

/-- The digit of a number below ten. -/
def ofNat (k : Nat) (h : k < 10) : Digit :=
  ⟨Nat.digitChar k, k, digitValue?_digitChar k h⟩

theorem foldl_number (digits : List Digit) (n : Nat) :
    digits.foldl (fun n d => 10 * n + d.value) n = n * Nat.pow 10 digits.length + number digits := by
  induction digits generalizing n with
  | nil => simp [number]
  | cons d digits ih =>
    have step := ih (10 * n + d.value)
    have first := ih (10 * 0 + d.value)
    simp only [number, List.foldl_cons, List.length_cons] at *
    rw [step, first]
    simp only [Nat.pow_eq, Nat.pow_succ]
    grind

theorem number_append (first second : List Digit) :
    number (first ++ second) = number first * Nat.pow 10 second.length + number second := by
  rw [number, List.foldl_append, foldl_number]
  rfl

theorem number_zeros (zero : Digit) (h : zero.value = 0) (count : Nat) :
    number (List.replicate count zero) = 0 := by
  induction count with
  | zero => rfl
  | succ count ih =>
    rw [List.replicate_succ', number_append, ih]
    simp [number, h]

/-- A run of digits that writes a natural number. -/
theorem exists_digits (n : Nat) :
    ∃ digits, text digits = Nat.toDigits 10 n ∧ number digits = n := by
  induction n using Nat.strongRecOn with
  | ind n ih =>
    by_cases small : n < 10
    · refine ⟨[ofNat n small], ?_, ?_⟩
      · rw [Nat.toDigits_of_lt_base small]
        rfl
      · simp [number, ofNat]
    · obtain ⟨digits, written, value⟩ := ih (n / 10) (by omega)
      have last : n % 10 < 10 := Nat.mod_lt _ (by decide)
      refine ⟨digits ++ [ofNat (n % 10) last], ?_, ?_⟩
      · rw [Nat.toDigits_of_base_le (by decide) (by omega), ← written]
        simp [text, ofNat]
      · rw [number_append, value]
        simp only [number, List.foldl_cons, List.foldl_nil, ofNat, List.length_singleton]
        have parts := Nat.div_add_mod n 10
        change n / 10 * 10 + (10 * 0 + n % 10) = n
        omega

theorem length_text (digits : List Digit) : (text digits).length = digits.length :=
  List.length_map _

/-- The digit zero. -/
def zero : Digit :=
  ofNat 0 (by decide)

theorem text_zeros (count : Nat) : text (List.replicate count zero) = List.replicate count '0' := by
  rw [text, List.map_replicate]
  rfl

theorem text_append (first second : List Digit) :
    text (first ++ second) = text first ++ text second :=
  List.map_append

end Digit

end Calculator
