import Calculator.Decimal.Basic
import Calculator.Elementary.Arc
import Calculator.Elementary.Circular
import Calculator.Elementary.Power
import Calculator.Function

/-!
# Primitive functions

The standard registry holds twelve primitives, whose angles are in radians, and the names of the
values that are not finite.
-/
namespace Calculator

namespace Binary64

/-- The number nearest to half the circumference of the unit circle. -/
def pi : Binary64 := .ofDecimal .positive ⟨3141592653589793, -15⟩

/-- The number nearest to the base of the natural logarithm. -/
def euler : Binary64 := .ofDecimal .positive ⟨2718281828459045, -15⟩

/-- A straight angle in degrees. -/
def straightAngle : Binary64 := .ofNat 180

def degreesToRadians (x : Binary64) : Binary64 := x * (pi / straightAngle)

def radiansToDegrees (x : Binary64) : Binary64 := x * (straightAngle / pi)

end Binary64

inductive Primitive where
  | sin | cos | tan | asin | acos | atan | radians | degrees | log | log10 | sqrt | pow
  deriving DecidableEq, Repr

namespace Primitive

def all : List Primitive :=
  [.sin, .cos, .tan, .asin, .acos, .atan, .radians, .degrees, .log, .log10, .sqrt, .pow]

def name : Primitive → List Char
  | .sin => "sin".toList
  | .cos => "cos".toList
  | .tan => "tan".toList
  | .asin => "asin".toList
  | .acos => "acos".toList
  | .atan => "atan".toList
  | .radians => "radians".toList
  | .degrees => "degrees".toList
  | .log => "log".toList
  | .log10 => "log10".toList
  | .sqrt => "sqrt".toList
  | .pow => "pow".toList

def function : Primitive → Function
  | .sin => .unary .sin
  | .cos => .unary .cos
  | .tan => .unary .tan
  | .asin => .unary .arcsin
  | .acos => .unary .arccos
  | .atan => .unary .arctan
  | .radians => .unary .degreesToRadians
  | .degrees => .unary .radiansToDegrees
  | .log => .unary .log
  | .log10 => .unary .log10
  | .sqrt => .unary .sqrt
  | .pow => .binary .power

/-- The primitive of a name. -/
def ofName? (name : List Char) : Option Primitive :=
  all.find? fun p => p.name = name

theorem ofName?_name (p : Primitive) : ofName? p.name = some p := by
  cases p <;> rfl

theorem name_of_ofName? {name : List Char} {p : Primitive} (h : ofName? name = some p) :
    p.name = name := by
  have found := List.find?_some h
  exact of_decide_eq_true found

end Primitive

/-- The constants that expressions can name: the values that are not finite, under the names by
which they are displayed. -/
def nonFinite? (name : List Char) : Option Binary64 :=
  if name = "NaN".toList then some .nan
  else if name = "Infinity".toList then some (.infinite .positive)
  else none

namespace Registry

/-- The primitives and the names of the values that are not finite. -/
def standard : Registry where
  function? name := (Primitive.ofName? name).map Primitive.function
  constant? := nonFinite?

theorem standard_function? (p : Primitive) : standard.function? p.name = some p.function := by
  simp [standard, Primitive.ofName?_name]

end Registry

end Calculator
