import Calculator.Decimal.Basic
import Calculator.Elementary.Series

/-!
# Sine, cosine and tangent

An angle is reduced by the nearest multiple of the quarter circle to at most an eighth of the
circle, and the multiple decides which of sine and cosine applies and with which sign. Each
value is rounded once from far more places than a binary64 number has. A mathematical library that
does not round to the nearest number in every case may differ from it in the last place.
-/
namespace Calculator

namespace Fixed

/-- Sine and cosine of an angle. -/
def sinCos (x : Fixed) : Fixed × Fixed :=
  let quarters := nearestQuotient x halfPi
  let r := x - halfPi.mulInt quarters
  let y := r * r
  let s := r * circularSum y 2 taylorTerms
  let c := circularSum y 1 taylorTerms
  if quarters % 4 = 0 then (s, c)
  else if quarters % 4 = 1 then (c, -s)
  else if quarters % 4 = 2 then (-s, -c)
  else (-c, s)

end Fixed

namespace Binary64

/-- The sine of an angle in radians; an infinity has none. -/
def sin (x : Binary64) : Binary64 :=
  match x with
  | .nan => .nan
  | .infinite _ => .nan
  | .finite s m =>
    if m.quanta = 0 then x
    else
      let y := (Fixed.ofMagnitude m).sinCos.1.toBinary64
      if s = .negative then y.neg else y

/-- The cosine of an angle in radians; an infinity has none. -/
def cos (x : Binary64) : Binary64 :=
  match x with
  | .nan => .nan
  | .infinite _ => .nan
  | .finite _ m => (Fixed.ofMagnitude m).sinCos.2.toBinary64

/-- The tangent of an angle in radians; an infinity has none. -/
def tan (x : Binary64) : Binary64 :=
  match x with
  | .nan => .nan
  | .infinite _ => .nan
  | .finite s m =>
    if m.quanta = 0 then x
    else
      let (sine, cosine) := (Fixed.ofMagnitude m).sinCos
      let y := (sine / cosine).toBinary64
      if s = .negative then y.neg else y

/-- Angles of many turns. -/
example :
    [(ofNat (Nat.pow 10 22)).sin, (ofNat 1).cos, (ofNat 3).tan] =
    [ofDecimal .negative ⟨8522008497671888, -16⟩, ofDecimal .positive ⟨5403023058681398, -16⟩,
      ofDecimal .negative ⟨1425465430742778, -16⟩] := by
  decide +kernel

end Binary64

end Calculator
