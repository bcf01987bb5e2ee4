import Calculator.Proofs.Checked.Arithmetic
import Calculator.Proofs.Number.Scale

/-!
# Signs of powers

A power with a whole exponent is found on the absolute value of the base and has a minus sign exactly
for a base with a minus sign and an odd exponent. So the opposite base gives the same power or the
opposite one. The library gives only some of these powers; where it refuses, the infinity put in
place of its refusal has a sign found separately, and the law holds there, too.
-/
namespace Calculator

namespace Binary64

/-! ## Signs -/

theorem absolutePower_neg (x y : Binary64) : absolutePower (-x) y = absolutePower x y := by
  cases x <;> cases y <;> rfl

theorem hasMinus_neg {x : Binary64} (number : x ≠ .nan) : (-x).hasMinus = !x.hasMinus := by
  match x, number with
  | .nan, number => exact absurd rfl number
  | .infinite s, _ => cases s <;> rfl
  | .finite s m, _ => cases s <;> rfl

theorem withSign_opposite (s : Sign) (x : Binary64) : x.withSign s.opposite = -x.withSign s := by
  cases x <;> rfl

theorem hasMinus_withSign {x : Binary64} (number : x ≠ .nan) (s : Sign) :
    (x.withSign s).hasMinus = (s == .negative) := by
  cases x with
  | nan => exact absurd rfl number
  | infinite t => rfl
  | finite t m => rfl

theorem withSign_ne_nan {x : Binary64} (number : x ≠ .nan) (s : Sign) : x.withSign s ≠ .nan := by
  cases x with
  | nan => exact absurd rfl number
  | infinite t => nofun
  | finite t m => nofun

theorem ne_nan_of_isFinite {x : Binary64} (finite : x.isFinite = true) : x ≠ .nan := by
  rintro rfl
  cases finite

theorem neg_ne_nan {x : Binary64} (number : x ≠ .nan) : -x ≠ .nan := by
  cases x with
  | nan => exact absurd rfl number
  | infinite t => nofun
  | finite t m => nofun

/-! ## Powers of absolute values are numbers -/

theorem ofQuotient_ne_nan (s : Sign) (num den : Nat) : ofQuotient s num den ≠ .nan := by
  unfold ofQuotient
  split <;> nofun

end Binary64

theorem Fixed.toBinary64Scaled_ne_nan (x : Fixed) (k : Int) : x.toBinary64Scaled k ≠ .nan := by
  unfold toBinary64Scaled
  dsimp only
  split <;> exact Binary64.ofQuotient_ne_nan _ _ _

namespace BinaryFraction

theorem toBinary64_ne_nan (b : BinaryFraction) : b.toBinary64 ≠ .nan := by
  unfold toBinary64
  split <;> exact Binary64.ofQuotient_ne_nan _ _ _

theorem powerOfTwo_ne_nan (exponent : Int) : powerOfTwo exponent ≠ .nan := by
  unfold powerOfTwo
  split
  · nofun
  · split
    · nofun
    · exact toBinary64_ne_nan _

theorem ne_nan_of_wholePower? {b : BinaryFraction} {exponent : Int} {x : Binary64}
    (h : b.wholePower? exponent = some x) : x ≠ .nan := by
  unfold wholePower? at h
  split at h
  · cases h
    exact powerOfTwo_ne_nan _
  · split at h
    · cases h
      exact toBinary64_ne_nan _
    · cases h

theorem ne_nan_of_fractionalPower? {b : BinaryFraction} {p : Int} {halvings : Nat} {x : Binary64}
    (h : b.fractionalPower? p halvings = some x) : x ≠ .nan := by
  induction halvings generalizing b with
  | zero => exact ne_nan_of_wholePower? h
  | succ halvings ih =>
    obtain ⟨root, -, further⟩ := Option.bind_eq_some_iff.1 h
    exact ih further

theorem ne_nan_of_power? {b e : BinaryFraction} {s : Sign} {x : Binary64}
    (h : b.power? s e = some x) : x ≠ .nan := by
  unfold power? at h
  split at h
  · rw [← Option.some.inj h]
    exact powerOfTwo_ne_nan 0
  · split at h
    · exact ne_nan_of_wholePower? h
    · split at h
      · exact ne_nan_of_fractionalPower? h
      · cases h

end BinaryFraction

theorem Magnitude.power_ne_nan (m : Magnitude) (s : Sign) (e : Magnitude) : m.power s e ≠ .nan := by
  unfold power
  split
  · rename_i found
    exact BinaryFraction.ne_nan_of_power? found
  · dsimp only
    split
    · nofun
    · split
      · nofun
      · exact Fixed.toBinary64Scaled_ne_nan _ _

namespace Binary64

/-- The magnitude of one. -/
def oneMagnitude : Magnitude :=
  ⟨Nat.pow 2 52, 1022, by decide, .inr (Nat.le_refl _), by decide⟩

theorem one_eq : one = .finite .positive oneMagnitude := by
  decide +kernel

theorem one_ne_nan : one ≠ .nan := by
  rw [one_eq]
  nofun

theorem absolutePower_ne_nan {x y : Binary64} (hx : x ≠ .nan) (hy : y ≠ .nan) :
    absolutePower x y ≠ .nan := by
  unfold absolutePower
  split
  · exact absurd rfl hx
  · exact absurd rfl hy
  · split <;> nofun
  · split
    · exact one_ne_nan
    · split <;> nofun
  · split
    · split <;> nofun
    · exact Magnitude.power_ne_nan _ _ _

/-! ## Powers with whole exponents -/

theorem powerOfTwo_zero : BinaryFraction.powerOfTwo 0 = one := by
  decide +kernel

theorem absolutePower_one {t : Sign} {n : Magnitude} :
    absolutePower one (.finite t n) = one := by
  have reduced : BinaryFraction.ofMagnitude oneMagnitude = ⟨1, 0⟩ := by decide +kernel
  have some : oneMagnitude.quanta ≠ 0 := by decide +kernel
  have power : oneMagnitude.power t n = one := by
    rw [Magnitude.power, BinaryFraction.power?, if_pos reduced, powerOfTwo_zero]
  rw [one_eq, absolutePower, if_neg some, power, one_eq]

theorem isOddInteger_of_toInt? {y : Binary64} {i : Int} (whole : y.toInt? = some i) :
    y.isOddInteger = (i % 2 == 1) := by
  rw [isOddInteger, whole]

theorem finite_of_toInt? {y : Binary64} {i : Int} (whole : y.toInt? = some i) :
    ∃ t n, y = .finite t n := by
  cases y with
  | nan => cases whole
  | infinite t => cases whole
  | finite t n => exact ⟨t, n, rfl⟩

theorem ne_nan_of_toInt? {y : Binary64} {i : Int} (whole : y.toInt? = some i) : y ≠ .nan := by
  obtain ⟨t, n, rfl⟩ := finite_of_toInt? whole
  nofun

/-- The sign of a power with a whole exponent. -/
def powerSign (x : Binary64) (i : Int) : Sign :=
  if x.hasMinus ∧ i % 2 = 1 then .negative else .positive

theorem powerSign_eq_negative (x : Binary64) (i : Int) :
    (powerSign x i == .negative) = (x.hasMinus && i % 2 == 1) := by
  unfold powerSign
  rcases Int.emod_two_eq i with even | odd
  · rw [even]
    cases x.hasMinus <;> rfl
  · rw [odd]
    cases x.hasMinus <;> rfl

theorem powerSign_neg {x : Binary64} (number : x ≠ .nan) (i : Int) :
    powerSign (-x) i = if i % 2 = 0 then powerSign x i else (powerSign x i).opposite := by
  unfold powerSign
  rw [hasMinus_neg number]
  rcases Int.emod_two_eq i with even | odd
  · simp [even]
  · cases x.hasMinus <;> simp [odd, Sign.opposite]

theorem power_regular {x y : Binary64} (hx : x ≠ .nan) (hy : y ≠ .nan)
    (h : ¬ (y.isZero = true ∨ x = one)) :
    power x y = if x.isFinite ∧ y.isFinite ∧ x.isNegative ∧ y.toInt? = none then .nan
      else (absolutePower x y).withSign
        (if x.hasMinus ∧ y.isOddInteger then .negative else .positive) := by
  unfold power
  rw [if_neg h]
  split
  · exact absurd rfl hx
  · exact absurd rfl hy
  · rfl

/-- A power with a whole exponent other than zero is that of the absolute value, with its sign. The
power of one, which is found apart, is no exception. -/
theorem power_whole {x y : Binary64} {i : Int} (number : x ≠ .nan) (whole : y.toInt? = some i)
    (nonzero : y.isZero = false) :
    power x y = (absolutePower x y).withSign (powerSign x i) := by
  by_cases unit : x = one
  · obtain ⟨t, n, rfl⟩ := finite_of_toInt? whole
    have sign : powerSign one i = .positive := by
      rw [one_eq]
      simp [powerSign, hasMinus]
    have positive : one.withSign .positive = one := by
      rw [one_eq]
      rfl
    rw [unit, absolutePower_one, sign, positive]
    unfold power
    exact if_pos (.inr rfl)
  · have regular : ¬ (y.isZero = true ∨ x = one) := by simp [nonzero, unit]
    rw [power_regular number (ne_nan_of_toInt? whole) regular, if_neg (by simp [whole]),
      isOddInteger_of_toInt? whole, powerSign]
    simp only [beq_iff_eq]

theorem power_of_isZero {y : Binary64} (x : Binary64) (zero : y.isZero = true) : power x y = one := by
  unfold power
  exact if_pos (.inl zero)

theorem toInt?_of_isZero {y : Binary64} (zero : y.isZero = true) : y.toInt? = some 0 := by
  match y, zero with
  | .finite t n, zero =>
    have none : n.quanta = 0 := Checked.quanta_of_significand (beq_iff_eq.1 zero)
    rw [toInt?, none, if_pos (Nat.zero_mod _), Nat.zero_div]
    cases t <;> rfl

/-- The opposite base gives the same power for an even exponent and the opposite one for an odd one,
and a power has a minus sign exactly for a base with a minus sign and an odd exponent. -/
theorem power_opposite {x y : Binary64} {i : Int} (number : x ≠ .nan) (whole : y.toInt? = some i) :
    power x y ≠ .nan ∧ (power x y).hasMinus = (x.hasMinus && i % 2 == 1) ∧
      power (-x) y = if i % 2 = 0 then power x y else -power x y := by
  cases zero : y.isZero with
  | true =>
    obtain rfl : i = 0 := Option.some.inj (whole.symm.trans (toInt?_of_isZero zero))
    rw [power_of_isZero _ zero, power_of_isZero _ zero]
    refine ⟨one_ne_nan, ?_, (if_pos rfl).symm⟩
    rw [one_eq]
    simp [hasMinus]
  | false =>
    have absolute := absolutePower_ne_nan number (ne_nan_of_toInt? whole)
    rw [power_whole number whole zero, power_whole (neg_ne_nan number) whole zero, absolutePower_neg]
    refine ⟨withSign_ne_nan absolute _, ?_, ?_⟩
    · rw [hasMinus_withSign absolute, powerSign_eq_negative]
    · rw [powerSign_neg number, ← withSign_opposite]
      split <;> rfl

/-- A negative base has no power with an exponent that is not whole. -/
theorem power_fractional {x y : Binary64} (hx : x.isFinite = true) (negative : x.isNegative = true)
    (hy : y.isFinite = true) (fractional : y.toInt? = none) : power x y = .nan := by
  have nonzero : y.isZero = false := by
    cases zero : y.isZero with
    | false => rfl
    | true =>
      rw [toInt?_of_isZero zero] at fractional
      cases fractional
  have other : x ≠ one := by
    intro unit
    rw [unit, one_eq] at negative
    cases negative
  have regular : ¬ (y.isZero = true ∨ x = one) := by simp [nonzero, other]
  rw [power_regular (ne_nan_of_isFinite hx) (ne_nan_of_isFinite hy) regular,
    if_pos ⟨hx, hy, negative, fractional⟩]

end Binary64

namespace Checked

/-- A number is equal to an integer exactly if this is the whole number that it is found to be. -/
theorem equalsInt_iff {x : Binary64} {i : Int} : equalsInt x i = true ↔ x.toInt? = some i := by
  cases x with
  | nan => exact ⟨nofun, nofun⟩
  | infinite s => exact ⟨nofun, nofun⟩
  | finite s m =>
    rw [equalsInt, decide_eq_true_eq, Binary64.toInt?]
    have positive := Nat.ne_of_gt quantaPerUnit_pos
    generalize quantaPerUnit = unit at positive
    by_cases multiple : m.quanta % unit = 0
    · rw [if_pos multiple, Option.some.injEq, (apply_eq_quotient_mul s m.quanta unit).2 multiple,
        Int.mul_eq_mul_right_iff (by exact_mod_cast positive)]
    · rw [if_neg multiple]
      refine ⟨fun equal => absurd ?_ multiple, fun whole => ?_⟩
      · have quanta := congrArg Int.natAbs equal
        rw [Sign.natAbs_apply, Int.natAbs_mul, Int.natAbs_natCast] at quanta
        rw [quanta, Nat.mul_mod_left]
      · cases whole

/-- A number that is equal to no integer is found to be none. -/
theorem toInt?_eq_none {x : Binary64} (fractional : ∀ i, equalsInt x i = false) :
    x.toInt? = none := by
  cases found : x.toInt? with
  | none => rfl
  | some i =>
    have other := fractional i
    rw [equalsInt_iff.2 found] at other
    cases other

/-- For a base that is a number and a whole exponent the power never refuses and gives a number, and
the opposite base gives the same power if the exponent is even and the opposite one if it is odd. A
finite base below zero has no power with a finite exponent that is not whole. -/
theorem power_opposite_base (base exponent : Binary64) :
    (∀ i : Int, base ≠ .nan → equalsInt exponent i = true → ∃ value,
      power base exponent = .ok value ∧ value ≠ .nan ∧
      value.hasMinus = (base.hasMinus && i % 2 == 1) ∧
      power (-base) exponent = .ok (if i % 2 = 0 then value else -value)) ∧
    (base.isFinite = true → base.isNegative = true → exponent.isFinite = true →
      (∀ i, equalsInt exponent i = false) → power base exponent = .ok .nan) := by
  refine ⟨fun i number whole => ?_, fun hx negative hy fractional => ?_⟩
  · obtain ⟨regular, sign, opposite⟩ := Binary64.power_opposite number (equalsInt_iff.1 whole)
    exact ⟨_, power_eq base exponent, regular, sign, by rw [power_eq, opposite]⟩
  · rw [power_eq, Binary64.power_fractional hx negative hy (toInt?_eq_none fractional)]

/-- Ten to an odd exponent, beyond all numbers, and to a half. -/
theorem power_opposite_base_ten :
    let ten := Binary64.ofNat 10
    let exponent := Binary64.ofNat 309
    let half := Binary64.ofNat 1 / Binary64.ofNat 2
    ten ≠ .nan ∧ equalsInt exponent 309 = true ∧ power ten exponent = .ok (.infinite .positive) ∧
      power (-ten) exponent = .ok (.infinite .negative) ∧
      (-ten).isFinite = true ∧ (-ten).isNegative = true ∧ half.isFinite = true ∧
      (∀ i, equalsInt half i = false) ∧ power (-ten) half = .ok .nan := by
  intro ten exponent half
  have number : ten ≠ .nan := by decide +kernel
  have whole : equalsInt exponent 309 = true := by decide +kernel
  have large : ten.power exponent = .infinite .positive := by decide +kernel
  have fractional : ∀ i, equalsInt half i = false := by
    intro i
    have none : half.toInt? = none := by decide +kernel
    rw [Bool.eq_false_iff, Ne, equalsInt_iff, none]
    nofun
  have finite : (-ten).isFinite = true := by decide +kernel
  have negative : (-ten).isNegative = true := by decide +kernel
  have finite' : half.isFinite = true := by decide +kernel
  have value : power ten exponent = .ok (.infinite .positive) := by rw [power_eq, large]
  obtain ⟨found, same, -, -, opposite⟩ := (power_opposite_base ten exponent).1 309 number whole
  obtain rfl : found = .infinite .positive := Except.ok.inj (same.symm.trans value)
  exact ⟨number, whole, value, opposite, finite, negative, finite', fractional,
    (power_opposite_base (-ten) half).2 finite negative finite' fractional⟩

end Checked

end Calculator
