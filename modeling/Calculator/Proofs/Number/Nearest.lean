import Calculator.Binary64.Round
import Mathlib.Algebra.Order.Field.Rat
import Mathlib.Algebra.Order.Field.Power
import Mathlib.Tactic.Linarith
import Mathlib.Tactic.Positivity
import Mathlib.Tactic.Ring

/-!
# Nearest numbers

A rounded quotient is the nearest whole number, and of two equally near ones the even one, which
leaves no choice. The magnitude of a quotient is nearer to it than every other one, and half a step of
its scale away at most. Only behind the greatest magnitude there is none.
-/
namespace Calculator

/-- The whole number nearest to `x`; halfway it is even. -/
def Nearest (x : ℚ) (n : ℕ) : Prop :=
  |x - n| < 1 / 2 ∨ |x - n| = 1 / 2 ∧ n % 2 = 0

theorem nearest_roundDiv (num : ℕ) {den : ℕ} (h : 0 < den) :
    Nearest (num / den) (roundDiv num den) := by
  have positive : (0 : ℚ) < den := by exact_mod_cast h
  -- the quotient is its whole part and a fraction below one
  have parts : (num : ℚ) / den - (num / den : ℕ) = ((num % den : ℕ) : ℚ) / den := by
    rw [sub_eq_iff_eq_add, div_eq_iff positive.ne', add_mul, div_mul_cancel₀ _ positive.ne',
      add_comm]
    exact_mod_cast (Nat.div_add_mod' num den).symm
  have below : (0 : ℚ) ≤ ((num % den : ℕ) : ℚ) / den := by positivity
  have above : ((num % den : ℕ) : ℚ) / den < 1 := by
    rw [div_lt_one positive]
    exact_mod_cast Nat.mod_lt num h
  unfold roundDiv Nearest
  dsimp only
  split
  · rename_i small
    left
    have fraction : ((num % den : ℕ) : ℚ) / den < 1 / 2 := by
      rw [div_lt_div_iff₀ positive two_pos]
      exact_mod_cast (by omega : num % den * 2 < 1 * den)
    rw [parts, abs_of_nonneg below]
    exact fraction
  · split
    · rename_i large
      left
      have fraction : 1 / 2 < ((num % den : ℕ) : ℚ) / den := by
        rw [div_lt_div_iff₀ two_pos positive]
        exact_mod_cast (by omega : 1 * den < num % den * 2)
      rw [Nat.cast_add, Nat.cast_one, ← sub_sub, parts, abs_of_nonpos (by linarith)]
      linarith
    · have fraction : ((num % den : ℕ) : ℚ) / den = 1 / 2 := by
        rw [div_eq_div_iff positive.ne' two_ne_zero]
        exact_mod_cast (by omega : num % den * 2 = 1 * den)
      right
      refine ⟨?_, by omega⟩
      rcases Nat.mod_two_eq_zero_or_one (num / den) with even | odd
      · rw [even, Nat.add_zero, parts, fraction, abs_of_pos (by norm_num)]
      · rw [odd, Nat.cast_add, Nat.cast_one, ← sub_sub, parts, fraction, abs_of_neg (by norm_num)]
        norm_num

theorem one_le_abs_sub {n k : ℕ} (h : n ≠ k) : (1 : ℚ) ≤ |(n : ℚ) - k| := by
  have distance : 1 ≤ |(n : ℤ) - k| := Int.one_le_abs (sub_ne_zero.2 (by exact_mod_cast h))
  exact_mod_cast distance

namespace Nearest

variable {x y : ℚ} {n n' : ℕ}

theorem distance_le (h : Nearest x n) : |x - n| ≤ 1 / 2 := by
  rcases h with near | ⟨half, -⟩
  · exact near.le
  · exact half.le

/-- A number nearer to a whole number than one that is rounded to it is rounded to it too. -/
theorem of_nearer (h : Nearest x n) (nearer : |y - n| ≤ |x - n|) : Nearest y n := by
  rcases h with near | ⟨half, even⟩
  · exact .inl (nearer.trans_lt near)
  · rcases (nearer.trans half.le).lt_or_eq with near | half
    · exact .inl near
    · exact .inr ⟨half, even⟩

/-- No whole number is nearer. -/
theorem distance_le_distance (h : Nearest x n) (k : ℕ) : |x - n| ≤ |x - k| := by
  by_cases same : n = k
  · rw [same]
  · have apart := one_le_abs_sub same
    have triangle : |(n : ℚ) - k| ≤ |x - n| + |x - k| := by
      rw [abs_sub_comm x n]
      exact abs_sub_le _ _ _
    linarith [h.distance_le]

theorem unique (h : Nearest x n) (h' : Nearest x n') : n = n' := by
  by_contra different
  have apart := one_le_abs_sub different
  have triangle : |(n : ℚ) - n'| ≤ |x - n| + |x - n'| := by
    rw [abs_sub_comm x n]
    exact abs_sub_le _ _ _
  -- both are a half away, so both are even and neighbours
  have first := h.distance_le
  have second := h'.distance_le
  rcases h with near | ⟨-, even⟩
  · linarith
  · rcases h' with near | ⟨-, even'⟩
    · linarith
    · have neighbours : |(n : ℚ) - n'| = 1 := by linarith
      have whole : |(n : ℤ) - n'| = 1 := by exact_mod_cast neighbours
      rcases (abs_eq zero_le_one).1 whole with above | below <;> omega

end Nearest

namespace Magnitude

/-- Significands near `n` quanta have 53 binary digits, unless they are spaced by one quantum. -/
theorem scaleOf_bounds (n : ℕ) :
    (0 < scaleOf n → 2 ^ 52 * 2 ^ scaleOf n ≤ n) ∧ n < 2 ^ 53 * 2 ^ scaleOf n := by
  unfold scaleOf
  constructor
  · intro large
    rw [← pow_add, Nat.add_sub_cancel' (by omega)]
    exact Nat.log2_self_le (by rintro rfl; simp at large)
  · rw [← pow_add]
    exact Nat.lt_log2_self.trans_le (Nat.pow_le_pow_right two_pos (by omega))

section Quotient

variable (num : ℕ) {den : ℕ} (positive : 0 < den)

include positive

/-- The quotient between two powers of two, with the significand of its scale. -/
theorem quotient_bounds :
    (0 < scaleOf (num / den) → (2 : ℚ) ^ 52 * 2 ^ scaleOf (num / den) ≤ num / den) ∧
      (num / den : ℚ) < 2 ^ 53 * 2 ^ scaleOf (num / den) := by
  have cast : (0 : ℚ) < den := by exact_mod_cast positive
  obtain ⟨lower, upper⟩ := scaleOf_bounds (num / den)
  constructor
  · intro large
    rw [le_div_iff₀ cast]
    exact_mod_cast (Nat.le_div_iff_mul_le positive).1 (lower large)
  · rw [div_lt_iff₀ cast]
    exact_mod_cast (Nat.div_lt_iff_lt_mul positive).1 upper

/-- The significand of a quotient is the nearest one at its scale. -/
theorem nearest_significand :
    Nearest (num / den / 2 ^ scaleOf (num / den))
      (roundDiv num (den * Nat.pow 2 (scaleOf (num / den)))) := by
  have rounded := nearest_roundDiv num (Nat.mul_pos positive (Nat.two_pow_pos (scaleOf (num / den))))
  rw [Nat.cast_mul, Nat.cast_pow, Nat.cast_two, ← div_div] at rounded
  exact rounded

/-- Rounded, a significand has at most one binary digit more, and it is full above the least scale. -/
theorem significand_bounds :
    (0 < scaleOf (num / den) →
      Nat.pow 2 52 ≤ roundDiv num (den * Nat.pow 2 (scaleOf (num / den)))) ∧
      roundDiv num (den * Nat.pow 2 (scaleOf (num / den))) ≤ Nat.pow 2 53 := by
  have step : (0 : ℚ) < 2 ^ scaleOf (num / den) := by positivity
  obtain ⟨lower, upper⟩ := quotient_bounds num positive
  obtain ⟨below, above⟩ := abs_le.1 (nearest_significand num positive).distance_le
  generalize roundDiv num (den * Nat.pow 2 (scaleOf (num / den))) = significand at *
  constructor
  · intro large
    have quotient := (le_div_iff₀ step).2 (lower large)
    have bound : (2 : ℚ) ^ 52 < significand + 1 := by linarith
    have bound : 2 ^ 52 < significand + 1 := by exact_mod_cast bound
    exact Nat.lt_succ_iff.1 bound
  · have quotient := (div_lt_iff₀ step).2 upper
    have bound : (significand : ℚ) < 2 ^ 53 + 1 := by linarith
    have bound : significand < 2 ^ 53 + 1 := by exact_mod_cast bound
    exact Nat.lt_succ_iff.1 bound

end Quotient

/-- Parts in normal form make a magnitude up to the greatest scale. -/
theorem scale_of_ofParts?_eq_none {significand scale : ℕ} (room : significand < Nat.pow 2 53)
    (full : scale = 0 ∨ Nat.pow 2 52 ≤ significand) (h : ofParts? significand scale = none) :
    2045 < scale := by
  by_contra small
  rw [ofParts?, dif_pos ⟨room, full, by omega⟩] at h
  cases h

theorem quanta_of_ofParts? {significand scale : ℕ} {m : Magnitude}
    (h : ofParts? significand scale = some m) : m.quanta = significand * Nat.pow 2 scale := by
  unfold ofParts? at h
  split at h
  · cases h
    rfl
  · cases h

/-- The quanta of a rounded quotient. -/
theorem quanta_of_ofQuotient? {num den : ℕ} {m : Magnitude} (h : ofQuotient? num den = some m) :
    m.quanta = roundDiv num (den * Nat.pow 2 (scaleOf (num / den))) * 2 ^ scaleOf (num / den) := by
  unfold ofQuotient? at h
  dsimp only at h
  split at h
  · rename_i full
    rw [quanta_of_ofParts? h, full]
    simp only [Nat.pow_eq]
    ring
  · exact quanta_of_ofParts? h

/-- The middle between the greatest magnitude and the next one, if there were one. -/
def overflowQuanta : ℕ := (Nat.pow 2 54 - 1) * Nat.pow 2 2044

theorem overflowQuanta_eq :
    ∃ places, places = 2044 ∧ overflowQuanta = (Nat.pow 2 54 - 1) * Nat.pow 2 places := by
  refine ⟨2044, rfl, ?_⟩
  unfold overflowQuanta
  rfl

theorem overflowQuanta_le {scale : ℕ} (h : 2045 ≤ scale) :
    (overflowQuanta : ℚ) ≤ (2 ^ 53 - 1 / 2) * 2 ^ scale := by
  obtain ⟨k, rfl⟩ : ∃ k, scale = k + 1 := ⟨scale - 1, by omega⟩
  obtain ⟨least, count, middle⟩ := overflowQuanta_eq
  have smaller : overflowQuanta ≤ (2 ^ 54 - 1) * 2 ^ k := by
    rw [middle]
    exact Nat.mul_le_mul_left _ (Nat.pow_le_pow_right two_pos (by omega))
  calc (overflowQuanta : ℚ) ≤ (((2 ^ 54 - 1) * 2 ^ k : ℕ) : ℚ) := by exact_mod_cast smaller
    _ = (2 ^ 53 - 1 / 2) * 2 ^ (k + 1) := by
      rw [Nat.cast_mul, Nat.cast_pow, pow_succ]
      norm_num
      ring

theorem abs_sub_mul {x step : ℚ} (positive : 0 < step) (n : ℚ) :
    |x - n * step| = |x / step - n| * step := by
  rw [← abs_of_pos positive, ← abs_mul, abs_of_pos positive, sub_mul, div_mul_cancel₀ _ positive.ne']

section Rounded

variable {num den : ℕ} (positive : 0 < den)

include positive

/-- No multiple of a step is nearer to a quotient than its rounded value. -/
theorem distance_le_of_multiple {m : Magnitude} (h : ofQuotient? num den = some m) (k : ℕ) :
    |(num / den : ℚ) - m.quanta| ≤ |(num / den : ℚ) - k * 2 ^ scaleOf (num / den)| := by
  have step : (0 : ℚ) < 2 ^ scaleOf (num / den) := by positivity
  have near := (nearest_significand num positive).distance_le_distance k
  rw [quanta_of_ofQuotient? h, Nat.cast_mul, Nat.cast_pow, Nat.cast_two, abs_sub_mul step,
    abs_sub_mul step]
  exact mul_le_mul_of_nonneg_right near step.le

/-- A rounded quotient is half a step away at most. -/
theorem distance_le_half_step {m : Magnitude} (h : ofQuotient? num den = some m) :
    |(num / den : ℚ) - m.quanta| ≤ 1 / 2 * 2 ^ scaleOf (num / den) := by
  have step : (0 : ℚ) < 2 ^ scaleOf (num / den) := by positivity
  have near := (nearest_significand num positive).distance_le
  rw [quanta_of_ofQuotient? h, Nat.cast_mul, Nat.cast_pow, Nat.cast_two, abs_sub_mul step]
  exact mul_le_mul_of_nonneg_right near step.le

/-- No magnitude is nearer to a quotient than its rounded value. -/
theorem distance_le_distance {m : Magnitude} (h : ofQuotient? num den = some m) (m' : Magnitude) :
    |(num / den : ℚ) - m.quanta| ≤ |(num / den : ℚ) - m'.quanta| := by
  by_cases fine : m'.scale < scaleOf (num / den)
  · -- smaller steps are taken below the least full significand of this scale
    have lower := (quotient_bounds num positive).1 (Nat.zero_lt_of_lt fine)
    have below : (m'.quanta : ℚ) ≤ 2 ^ 52 * 2 ^ scaleOf (num / den) := by
      have power : 2 ^ m'.scale * 2 ≤ 2 ^ scaleOf (num / den) := by
        rw [← pow_succ]
        exact Nat.pow_le_pow_right two_pos fine
      have small : m'.quanta ≤ 2 ^ 52 * 2 ^ scaleOf (num / den) :=
        calc m'.quanta ≤ 2 ^ 53 * 2 ^ m'.scale := Nat.mul_le_mul_right _ m'.significand_lt.le
          _ = 2 ^ 52 * (2 ^ m'.scale * 2) := by ring
          _ ≤ 2 ^ 52 * 2 ^ scaleOf (num / den) := Nat.mul_le_mul_left _ power
      exact_mod_cast small
    have near := distance_le_of_multiple positive h (2 ^ 52)
    rw [Nat.cast_pow, Nat.cast_two, abs_of_nonneg (sub_nonneg.2 lower)] at near
    exact near.trans ((sub_le_sub_left below _).trans (le_abs_self _))
  · have multiple : (m'.quanta : ℚ) =
        ((m'.significand * 2 ^ (m'.scale - scaleOf (num / den)) : ℕ) : ℚ) *
          2 ^ scaleOf (num / den) := by
      have whole : m'.quanta =
          m'.significand * 2 ^ (m'.scale - scaleOf (num / den)) * 2 ^ scaleOf (num / den) := by
        rw [mul_assoc, ← pow_add, Nat.sub_add_cancel (not_lt.1 fine)]
        rfl
      exact_mod_cast whole
    rw [multiple]
    exact distance_le_of_multiple positive h _

/-- A quotient without a magnitude is not below the middle behind the greatest one. -/
theorem le_of_ofQuotient?_eq_none (h : ofQuotient? num den = none) :
    (overflowQuanta : ℚ) ≤ num / den := by
  have step : (0 : ℚ) < 2 ^ scaleOf (num / den) := by positivity
  obtain ⟨lower, -⟩ := quotient_bounds num positive
  obtain ⟨least, most⟩ := significand_bounds num positive
  obtain ⟨below, -⟩ := abs_le.1 (nearest_significand num positive).distance_le
  unfold ofQuotient? at h
  dsimp only at h
  generalize roundDiv num (den * Nat.pow 2 (scaleOf (num / den))) = significand at *
  generalize scaleOf (num / den) = scale at *
  split at h
  · rename_i full
    have large : 2045 < scale + 1 :=
      scale_of_ofParts?_eq_none (by decide) (.inr (Nat.le_refl _)) h
    have quotient : 2 ^ 53 - 1 / 2 ≤ (num / den : ℚ) / 2 ^ scale := by
      rw [full] at below
      norm_num at below ⊢
      linarith
    exact (overflowQuanta_le (Nat.lt_succ_iff.1 large)).trans ((le_div_iff₀ step).1 quotient)
  · rename_i other
    have full : scale = 0 ∨ Nat.pow 2 52 ≤ significand :=
      (Nat.eq_zero_or_pos scale).imp_right least
    have large := scale_of_ofParts?_eq_none (lt_of_le_of_ne most other) full h
    obtain ⟨k, rfl⟩ : ∃ k, scale = k + 1 := ⟨scale - 1, by omega⟩
    calc (overflowQuanta : ℚ) ≤ (2 ^ 53 - 1 / 2) * 2 ^ k := overflowQuanta_le (by omega)
      _ ≤ 2 ^ 53 * 2 ^ k := mul_le_mul_of_nonneg_right (by norm_num) (by positivity)
      _ = 2 ^ 52 * 2 ^ (k + 1) := by ring
      _ ≤ num / den := lower k.succ_pos

end Rounded

end Magnitude

end Calculator
