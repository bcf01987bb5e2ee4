import Calculator.Decimal.Basic
import Calculator.Elementary.Series

/-!
# Arcus functions

An angle is found from its tangent: halving the angle a few times makes the tangent small enough
for the series. The arcus sine and cosine go through the tangent `x / √((1 - x) * (1 + x))`. Each
value is rounded once from far more places than a binary64 number has, where a mathematical library
may differ in the last place.
-/
namespace Calculator

namespace Fixed

/-- The tangent of half the angle whose tangent is `t`. -/
def halfAngle (t : Fixed) : Fixed :=
  t / (one + sqrt (one + t * t))

/-- The angle of a tangent between zero and one. -/
def arctanUnit (t : Fixed) : Fixed :=
  (smallArctan t.halfAngle.halfAngle.halfAngle).mulInt 8

/-- The angle of a tangent that is not negative. -/
def arctan (t : Fixed) : Fixed :=
  if t.units ≤ one.units then arctanUnit t else halfPi - arctanUnit (one / t)

/-- The angle of a sine between zero and one. -/
def arcsin (x : Fixed) : Fixed :=
  if one.units ≤ x.units then halfPi else arctan (x / sqrt ((one - x) * (one + x)))

end Fixed

namespace Binary64

/-- The angle of a tangent; that of an infinity is a quarter of the circle. -/
def arctan (x : Binary64) : Binary64 :=
  match x with
  | .nan => .nan
  | .infinite s => Fixed.halfPi.toBinary64.withSign s
  | .finite s m =>
    if m.quanta = 0 then x else (Fixed.ofMagnitude m).arctan.toBinary64.withSign s

/-- The angle of a sine; above one there is none. -/
def arcsin (x : Binary64) : Binary64 :=
  match x with
  | .nan => .nan
  | .infinite _ => .nan
  | .finite s m =>
    if m.quanta = 0 then x
    else if quantaPerUnit < m.quanta then .nan
    else (Fixed.ofMagnitude m).arcsin.toBinary64.withSign s

/-- The angle of a cosine; above one there is none. -/
def arccos (x : Binary64) : Binary64 :=
  match x with
  | .nan => .nan
  | .infinite _ => .nan
  | .finite s m =>
    if quantaPerUnit < m.quanta then .nan
    else
      let angle := (Fixed.ofMagnitude m).arcsin
      match s with
      | .positive => (Fixed.halfPi - angle).toBinary64
      | .negative => (Fixed.halfPi + angle).toBinary64

/-- The ends of the arcus functions. -/
example :
    [(ofNat 1).arcsin, (ofNat 1).arccos, (ofNat 1).neg.arccos, (ofNat 1).arctan,
      (infinite .negative).arctan, (ofNat 2).arcsin] =
    [ofDecimal .positive ⟨15707963267948966, -16⟩, zero,
      ofDecimal .positive ⟨3141592653589793, -15⟩, ofDecimal .positive ⟨7853981633974483, -16⟩,
      ofDecimal .negative ⟨15707963267948966, -16⟩, nan] := by
  decide +kernel

end Binary64

end Calculator
