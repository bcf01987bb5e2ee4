import Calculator.Elementary.Fixed

/-!
# Power series

Each series is summed from its last term inward, so that every step is one product and one
quotient. The counts of terms leave remainders below the last binary place for the arguments that
the elementary functions pass.
-/
namespace Calculator.Fixed

/-- The nested sum `1 + x/k * (1 + x/(k+1) * …)`, whose value at `k = 1` is the exponential. -/
def exponentialSum (x : Fixed) (k : Nat) : Nat → Fixed
  | 0 => one
  | terms + 1 => one + (x * exponentialSum x (k + 1) terms).divNat k

/-- The nested sum `1 - y/(k*(k+1)) * (1 - y/((k+2)*(k+3)) * …)`. At the square `y` of an angle it
is the cosine for `k = 1`, and for `k = 2` the sine divided by the angle. -/
def circularSum (y : Fixed) (k : Nat) : Nat → Fixed
  | 0 => one
  | terms + 1 => one - (y * circularSum y (k + 2) terms).divNat (k * (k + 1))

/-- The nested sum `1/k - y * (1/(k+2) - y * …)`. At the square `y` of a tangent and `k = 1` it is
the angle divided by the tangent. -/
def arcSum (y : Fixed) (k : Nat) : Nat → Fixed
  | 0 => one.divNat k
  | terms + 1 => one.divNat k - y * arcSum y (k + 2) terms

/-- Terms for arguments of the exponential and of sine and cosine up to one. -/
def taylorTerms : Nat := 340

/-- Terms for tangents up to a fifth. -/
def arcTerms : Nat := 560

/-- The angle of a tangent of at most a fifth. -/
def smallArctan (t : Fixed) : Fixed :=
  t * arcSum (t * t) 1 arcTerms

/-- The area tangent of a number of at most a fifth, `log ((1 + t) / (1 - t)) / 2`. -/
def smallArtanh (t : Fixed) : Fixed :=
  t * arcSum (-(t * t)) 1 arcTerms

/-- Half the circumference of the unit circle, from the angles of tangents `1/5` and `1/239`. -/
def pi : Fixed :=
  (smallArctan (ofRatio 1 5)).mulInt 16 - (smallArctan (ofRatio 1 239)).mulInt 4

def halfPi : Fixed := pi.divNat 2

/-- The natural logarithm of two, `2 * artanh (1/3)`, with terms for a tangent of a third. -/
def logTwo : Fixed :=
  let t := ofRatio 1 3
  (t * arcSum (-(t * t)) 1 900).mulInt 2

end Calculator.Fixed
