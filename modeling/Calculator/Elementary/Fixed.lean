import Calculator.Binary64.Arithmetic

/-!
# Fixed-point numbers

The elementary functions are computed with many more digits than binary64 has and rounded once at
the end. A fixed-point number counts steps of `2 ^ -2560`: fine enough that the least binary64
numbers keep some fourteen hundred significant bits, and that a greatest one can still be reduced
by a multiple of the circle.
-/
namespace Calculator

/-- The number of binary places of a fixed-point number. -/
def fixedPlaces : Nat := 2560

/-- A real number to `fixedPlaces` binary places. -/
structure Fixed where
  units : Int
  deriving DecidableEq, Repr

namespace Fixed

/-- The number of units in one. -/
def unit : Nat := Nat.pow 2 fixedPlaces

def ofInt (i : Int) : Fixed := ⟨i * unit⟩

def one : Fixed := ofInt 1

/-- The quotient of two whole numbers, rounded down. -/
def ofRatio (num : Int) (den : Nat) : Fixed := ⟨num * unit / den⟩

def add (x y : Fixed) : Fixed := ⟨x.units + y.units⟩

def sub (x y : Fixed) : Fixed := ⟨x.units - y.units⟩

def mul (x y : Fixed) : Fixed := ⟨x.units * y.units / unit⟩

def div (x y : Fixed) : Fixed := ⟨x.units * unit / y.units⟩

def neg (x : Fixed) : Fixed := ⟨-x.units⟩

instance : Add Fixed := ⟨add⟩
instance : Sub Fixed := ⟨sub⟩
instance : Mul Fixed := ⟨mul⟩
instance : Div Fixed := ⟨div⟩
instance : Neg Fixed := ⟨neg⟩

def mulInt (x : Fixed) (k : Int) : Fixed := ⟨x.units * k⟩

def divNat (x : Fixed) (k : Nat) : Fixed := ⟨x.units / k⟩

/-- The product with a power of two. -/
def scale (x : Fixed) (k : Int) : Fixed :=
  match k with
  | .ofNat k => ⟨x.units * Nat.pow 2 k⟩
  | .negSucc k => ⟨x.units / Nat.pow 2 (k + 1)⟩

/-- The square root of a number that is not negative. -/
def sqrt (x : Fixed) : Fixed := ⟨floorSqrt (x.units.toNat * unit)⟩

/-- The whole number nearest to `x / y`, for a positive `y`. -/
def nearestQuotient (x y : Fixed) : Int :=
  (2 * x.units + y.units) / (2 * y.units)

/-- The exact value of a number of quanta. -/
def ofQuanta (n : Nat) : Fixed := ⟨n * Nat.pow 2 (fixedPlaces - 1074)⟩

def ofMagnitude (m : Magnitude) : Fixed := ofQuanta m.quanta

/-- The binary64 number nearest to `x * 2 ^ k`. -/
def toBinary64Scaled (x : Fixed) (k : Int) : Binary64 :=
  let s := Sign.ofInt x.units
  match k with
  | .ofNat k => .ofQuotient s (x.units.natAbs * Nat.pow 2 k) (Nat.pow 2 (fixedPlaces - 1074))
  | .negSucc k => .ofQuotient s x.units.natAbs (Nat.pow 2 (fixedPlaces - 1074 + k + 1))

/-- The binary64 number nearest to a fixed-point number. -/
def toBinary64 (x : Fixed) : Binary64 := x.toBinary64Scaled 0

end Fixed

end Calculator
