import Calculator.Decimal.Basic

/-!
# Decimal digits of a magnitude

Two ways to choose the digits of a number: a fixed count of significant digits, rounded to nearest,
or as few digits as still read back as the same number. With a count of digits fixed, the decimals
of a magnitude's decade form a grid, and the magnitude lies between two neighbours on it.
-/
namespace Calculator.Magnitude

/-- The exponent of the leading decimal digit of a magnitude that is not zero. Below one it is found
from the least power of ten that is not below the reciprocal. -/
def decade (m : Magnitude) : Int :=
  let whole := m.quanta / quantaPerUnit
  if whole ≠ 0 then (digitCount whole : Int) - 1
  else
    let reciprocal := (quantaPerUnit + m.quanta - 1) / m.quanta
    Int.negOfNat (digitCount (reciprocal - 1))

/-- The magnitude divided by a power of ten, as a numerator and a denominator. -/
def quotientBy (m : Magnitude) (exponent : Int) : Nat × Nat :=
  match exponent with
  | .ofNat e => (m.quanta, quantaPerUnit * Nat.pow 10 e)
  | .negSucc e => (m.quanta * Nat.pow 10 (e + 1), quantaPerUnit)

/-- The exponent of the last of `count` significant digits. -/
def gridExponent (m : Magnitude) (count : Nat) : Int :=
  m.decade + 1 - count

/-- The nearest decimal with `count` significant digits; halfway it is the even one. -/
def significant (m : Magnitude) (count : Nat) : Decimal :=
  let exponent := m.gridExponent count
  let (num, den) := m.quotientBy exponent
  ⟨roundDiv num den, exponent⟩

/-- The decimal reads back as the magnitude. -/
def ReadsBack (m : Magnitude) (d : Decimal) : Prop :=
  d.toMagnitude? = some m

instance (m : Magnitude) (d : Decimal) : Decidable (m.ReadsBack d) :=
  inferInstanceAs (Decidable (_ = _))

/-- The nearest decimal with `count` significant digits that reads back, if there is one. -/
def nearestReadingBack? (m : Magnitude) (count : Nat) : Option Decimal :=
  let exponent := m.gridExponent count
  let (num, den) := m.quotientBy exponent
  let below : Decimal := ⟨num / den, exponent⟩
  let above : Decimal := ⟨num / den + 1, exponent⟩
  if m.ReadsBack below ∧ m.ReadsBack above then some ⟨roundDiv num den, exponent⟩
  else if m.ReadsBack below then some below
  else if m.ReadsBack above then some above
  else none

/-- The exact value of a magnitude. -/
def exactDecimal (m : Magnitude) : Decimal :=
  ⟨m.quanta * Nat.pow 5 1074, -1074⟩

/-- The exact value reads back. -/
theorem readsBack_exactDecimal (m : Magnitude) (h : m.quanta ≠ 0) :
    m.ReadsBack m.exactDecimal := by
  have large : 2493 ≤ (m.quanta * Nat.pow 5 1074).log2 :=
    (Nat.le_log2 (Nat.mul_ne_zero h (by decide +kernel))).2
      (Nat.le_trans (by decide +kernel) (Nat.le_mul_of_pos_left _ (Nat.pos_of_ne_zero h)))
  have visible : ¬ (m.quanta * Nat.pow 5 1074).log2 + Decimal.vanishingBits < 3 * (1073 + 1) :=
    Nat.not_lt.2 (Nat.le_trans (show 3 * (1073 + 1) ≤ 2493 + Decimal.vanishingBits by decide)
      (Nat.add_le_add_right large Decimal.vanishingBits))
  have scaled : Nat.pow 10 (1073 + 1) = 1 * (Nat.pow 5 1074 * quantaPerUnit) := by decide +kernel
  have positive : 0 < Nat.pow 5 1074 * quantaPerUnit := by decide +kernel
  unfold ReadsBack exactDecimal
  rw [show (-1074 : Int) = Int.negSucc 1073 from rfl, Decimal.toMagnitude?_negSucc,
    if_neg visible, scaled, Nat.mul_assoc, ofQuotient?_mul_right m.quanta 1 positive]
  exact ofQuotient?_quanta m

theorem readsBack_of_nearestReadingBack? {m : Magnitude} {count : Nat} {d : Decimal}
    (h : m.nearestReadingBack? count = some d) : m.ReadsBack d := by
  unfold nearestReadingBack? at h
  dsimp only at h
  split at h
  · rename_i both
    cases h
    rcases roundDiv_eq_or (m.quotientBy (m.gridExponent count)).1
      (m.quotientBy (m.gridExponent count)).2 with e | e <;> rw [e]
    · exact both.1
    · exact both.2
  · split at h
    · cases h; assumption
    · split at h
      · cases h; assumption
      · cases h

/-- The decimal with the fewest digits that reads back; of several, the nearest. -/
def shortest (m : Magnitude) : Decimal :=
  if m.quanta = 0 then ⟨0, 0⟩
  else ((List.range 17).findSome? fun n => m.nearestReadingBack? (n + 1)).getD m.exactDecimal

/-- The shortest digits read back. -/
theorem readsBack_shortest (m : Magnitude) : m.ReadsBack m.shortest := by
  unfold shortest
  split
  · rename_i h
    rw [eq_zero_of_quanta h]
    rfl
  · rename_i h
    cases found : (List.range 17).findSome? fun n => m.nearestReadingBack? (n + 1) with
    | none => exact readsBack_exactDecimal m h
    | some d =>
      obtain ⟨n, _, hit⟩ := List.exists_of_findSome?_eq_some found
      exact readsBack_of_nearestReadingBack? hit

end Calculator.Magnitude
