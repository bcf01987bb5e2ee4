import Calculator.Binary64.Basic

/-!
# Rounding to nearest

An exact result is a quotient of natural numbers, counted in quanta. It becomes the nearest
magnitude, and of two equally near ones the one with the even significand. A quotient that rounds
beyond the greatest magnitude has none, and its number is infinite.
-/
namespace Calculator

/-- The whole number nearest to `num / den`; halfway it is the even neighbour. -/
def roundDiv (num den : Nat) : Nat :=
  let below := num / den
  let rest := num % den
  if 2 * rest < den then below
  else if den < 2 * rest then below + 1
  else below + below % 2

/-- The nearest whole number is one of the two neighbours. -/
theorem roundDiv_eq_or (num den : Nat) :
    roundDiv num den = num / den ∨ roundDiv num den = num / den + 1 := by
  unfold roundDiv
  dsimp only
  split
  · exact .inl rfl
  · split
    · exact .inr rfl
    · rcases Nat.mod_two_eq_zero_or_one (num / den) with h | h <;> simp [h]

/-- Common factors do not matter. -/
theorem roundDiv_mul_right (num den : Nat) {k : Nat} (h : 0 < k) :
    roundDiv (num * k) (den * k) = roundDiv num den := by
  unfold roundDiv
  simp only [Nat.mul_div_mul_right _ _ h, Nat.mul_mod_mul_right, ← Nat.mul_assoc,
    Nat.mul_lt_mul_right h]

theorem roundDiv_mul_self (n : Nat) {den : Nat} (h : 0 < den) : roundDiv (n * den) den = n := by
  simp [roundDiv, Nat.mul_div_cancel _ h, h]

namespace Magnitude

/-- The power of two by which significands near `n` quanta are spaced. -/
def scaleOf (n : Nat) : Nat :=
  n.log2 - 52

/-- The magnitude nearest to `num / den` quanta; none if it would be too large. -/
def ofQuotient? (num den : Nat) : Option Magnitude :=
  let scale := scaleOf (num / den)
  let significand := roundDiv num (den * Nat.pow 2 scale)
  if significand = Nat.pow 2 53 then ofParts? (Nat.pow 2 52) (scale + 1)
  else ofParts? significand scale

/-- Common factors do not matter. -/
theorem ofQuotient?_mul_right (num den : Nat) {k : Nat} (h : 0 < k) :
    ofQuotient? (num * k) (den * k) = ofQuotient? num den := by
  unfold ofQuotient?
  simp only [Nat.mul_div_mul_right _ _ h, Nat.mul_right_comm _ k, roundDiv_mul_right _ _ h]

theorem scaleOf_quanta (m : Magnitude) : scaleOf m.quanta = m.scale := by
  unfold scaleOf
  by_cases zero : m.quanta = 0
  · rw [eq_zero_of_quanta zero]
    rfl
  · have upper : m.quanta.log2 < 53 + m.scale :=
      (Nat.log2_lt zero).2 (by
        rw [Nat.pow_add]
        exact Nat.mul_lt_mul_of_pos_right m.significand_lt (Nat.two_pow_pos _))
    rcases m.full with h | h
    · omega
    · have lower : 52 + m.scale ≤ m.quanta.log2 :=
        (Nat.le_log2 zero).2 (by
          rw [Nat.pow_add]
          exact Nat.mul_le_mul_right _ h)
      omega

/-- A magnitude is the nearest one to itself. -/
theorem ofQuotient?_quanta (m : Magnitude) : ofQuotient? m.quanta 1 = some m := by
  have rounded : roundDiv m.quanta (1 * Nat.pow 2 m.scale) = m.significand := by
    rw [Nat.one_mul]
    exact roundDiv_mul_self _ (Nat.two_pow_pos _)
  have below : ¬ m.significand = Nat.pow 2 53 := Nat.ne_of_lt m.significand_lt
  unfold ofQuotient?
  simp only [Nat.div_one, scaleOf_quanta, rounded, if_neg below]
  exact ofParts?_eq_some m

end Magnitude

namespace Binary64

/-- The number nearest to `num / den` quanta, with a sign. -/
def ofQuotient (s : Sign) (num den : Nat) : Binary64 :=
  match Magnitude.ofQuotient? num den with
  | some m => .finite s m
  | none => .infinite s

/-- The number nearest to a whole number. -/
def ofNat (n : Nat) : Binary64 :=
  ofQuotient .positive (n * quantaPerUnit) 1

end Binary64

end Calculator
