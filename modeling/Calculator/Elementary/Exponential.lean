import Calculator.Decimal.Basic
import Calculator.Elementary.Series

/-!
# Exponential and logarithms

The exponential is reduced by a multiple of `log 2`, which becomes a power of two. The logarithm
takes the power of two out of its argument and leaves a factor between two thirds and four thirds.
Each logarithm is rounded once from far more places than a binary64 number has, where a mathematical
library may differ in the last place.
-/
namespace Calculator

namespace Fixed

/-- The exponential of a number, as a factor near one and a power of two. -/
def exponential (x : Fixed) : Fixed × Int :=
  let k := nearestQuotient x logTwo
  (exponentialSum (x - logTwo.mulInt k) 1 taylorTerms, k)

/-- The natural logarithm of a positive magnitude. -/
def logarithm (m : Magnitude) : Fixed :=
  let top := m.significand.log2
  let power := if 4 * Nat.pow 2 top < 3 * m.significand then top + 1 else top
  let t := ofRatio ((m.significand : Int) - Nat.pow 2 power) (m.significand + Nat.pow 2 power)
  (smallArtanh t).mulInt 2 + logTwo.mulInt (power + m.scale - 1074)

/-- The natural logarithm of ten, `log 8 + log (5/4)`. -/
def logTen : Fixed :=
  logTwo.mulInt 3 + (smallArtanh (ofRatio 1 9)).mulInt 2

end Fixed

namespace Binary64

/-- A logarithm, given on positive magnitudes: that of zero is the negative infinity, and a number
below zero has none. -/
def logarithmWith (f : Magnitude → Binary64) (x : Binary64) : Binary64 :=
  match x with
  | .nan => .nan
  | .infinite .positive => .infinite .positive
  | .infinite .negative => .nan
  | .finite s m =>
    if m.quanta = 0 then .infinite .negative
    else match s with
      | .positive => f m
      | .negative => .nan

/-- The natural logarithm. -/
def log (x : Binary64) : Binary64 :=
  logarithmWith (fun m => (Fixed.logarithm m).toBinary64) x

/-- The logarithm to base ten. -/
def log10 (x : Binary64) : Binary64 :=
  logarithmWith (fun m => (Fixed.logarithm m / Fixed.logTen).toBinary64) x

/-- Logarithms of one, of ten, of a power of the base, of zero and below. -/
example :
    [(ofNat 1).log, (ofNat 10).log, (ofNat 1000).log10, zero.log10, (ofNat 1).neg.log] =
    [zero, ofDecimal .positive ⟨2302585092994046, -15⟩, ofNat 3, infinite .negative, nan] := by
  decide +kernel

end Binary64

end Calculator
