import Calculator.Decimal.Basic
import Calculator.Elementary.Exponential
import Calculator.Elementary.Factorial

/-!
# Factorials from a series

A library for the factorials between whole numbers, which programs run with. The factorial is the
gamma function at one more, found from the incomplete gamma function up to 128, beyond which the
integral is negligible. It is found with all the digits of fixed-point numbers, whatever number of
digits is asked for.
-/
namespace Calculator

namespace Fixed

/-- The nested sum `1/(z+k) * (1 + a/(z+k+1) * (1 + a/(z+k+2) * …))`. At `k = 0` it is the
incomplete gamma function up to `a`, divided by `a ^ z * exp (-a)`. -/
def gammaSum (a : Nat) (z : Fixed) (k : Nat) : Nat → Fixed
  | 0 => one / (z + ofInt k)
  | terms + 1 => (one + (gammaSum a z (k + 1) terms).mulInt a) / (z + ofInt k)

/-- The gamma function between one and two: `a ^ z * exp (-a)` times the sum, where the logarithm
of `a = 128` is seven times that of two. -/
def gamma (z : Fixed) : Fixed :=
  let (factor, k) := ((logTwo * z).mulInt 7 - ofInt 128).exponential
  (factor * gammaSum 128 z 0 512).scale k

/-- The product `(x + 1) * … * (x + n)`. -/
def risingProduct (x : Fixed) : Nat → Fixed
  | 0 => one
  | n + 1 => (x + ofInt (n + 1)) * risingProduct x n

end Fixed

namespace FactorialLibrary

/-- The library of the series. A factorial beyond the greatest finite one of a whole number is only
known to be too large. -/
def series : FactorialLibrary where
  Value := Option Fixed
  factorial _ x :=
    match x with
    | .finite _ m =>
      let whole := m.quanta / quantaPerUnit
      let fraction := Fixed.ofQuanta (m.quanta % quantaPerUnit)
      if Binary64.factorialLimit < whole then .ok none
      else .ok (some ((fraction + Fixed.one).gamma * fraction.risingProduct whole))
    | _ => .ok none
  toBinary64
    | some value => .ok value.toBinary64
    | none => .error .overflow

theorem isComplete_series : series.IsComplete where
  defined digits x _ _ _ := by
    unfold series
    dsimp only
    split
    · split
      · exact ⟨_, rfl⟩
      · exact ⟨_, rfl⟩
    · exact ⟨_, rfl⟩
  converted value failure := by
    cases value with
    | none => exact nofun
    | some value => exact nofun

end FactorialLibrary

/-- Factorials of whole numbers and between them. -/
example :
    [Binary64.zero.neg, .ofNat 5, .ofNat 170, .ofNat 171, .ofDecimal .positive ⟨5, -1⟩,
        .ofDecimal .positive ⟨1715, -1⟩, (Binary64.ofNat 1).neg].map
      (fun x => (x.factorial .series).toOption) =
    [.ofNat 1, .ofNat 120, .ofDecimal .positive ⟨7257415615307999, 291⟩, .infinite .positive,
      .ofDecimal .positive ⟨886226925452758, -15⟩, .infinite .positive, .nan].map some := by
  decide +kernel

end Calculator
