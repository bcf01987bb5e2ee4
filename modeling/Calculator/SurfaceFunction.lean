import Calculator.AngleMode
import Calculator.Primitive

/-!
# Surface functions

The functions that a user writes. Those of angles depend on the angle mode.
-/
namespace Calculator

/-- A function that the user writes. -/
inductive SurfaceFunction where
  | sin | cos | tan | arcsin | arccos | arctan | log | ln | sqrt | pow10 | powE
  deriving DecidableEq, Repr

namespace SurfaceFunction

def all : List SurfaceFunction :=
  [.sin, .cos, .tan, .arcsin, .arccos, .arctan, .log, .ln, .sqrt, .pow10, .powE]

def name : SurfaceFunction → List Char
  | .sin => "sin".toList
  | .cos => "cos".toList
  | .tan => "tan".toList
  | .arcsin => "arcsin".toList
  | .arccos => "arccos".toList
  | .arctan => "arctan".toList
  | .log => "log".toList
  | .ln => "ln".toList
  | .sqrt => "sqrt".toList
  | .pow10 => "pow10".toList
  | .powE => "powE".toList

/-- The function of a name. -/
def ofName? (name : List Char) : Option SurfaceFunction :=
  all.find? fun f => f.name = name

theorem ofName?_name (f : SurfaceFunction) : ofName? f.name = some f := by
  cases f <;> rfl

/-- A function of an angle, in the angle mode. -/
def ofAngle (mode : AngleMode) (f : Binary64 → Binary64) (x : Binary64) : Binary64 :=
  match mode with
  | .degrees => f x.degreesToRadians
  | .radians => f x

/-- A function whose value is an angle, in the angle mode. -/
def toAngle (mode : AngleMode) (f : Binary64 → Binary64) (x : Binary64) : Binary64 :=
  match mode with
  | .degrees => (f x).radiansToDegrees
  | .radians => f x

/-- The value of a function in an angle mode. -/
def apply (f : SurfaceFunction) (mode : AngleMode) (x : Binary64) : Binary64 :=
  match f with
  | .sin => ofAngle mode .sin x
  | .cos => ofAngle mode .cos x
  | .tan => ofAngle mode .tan x
  | .arcsin => toAngle mode .arcsin x
  | .arccos => toAngle mode .arccos x
  | .arctan => toAngle mode .arctan x
  | .log => x.log10
  | .ln => x.log
  | .sqrt => x.sqrt
  | .pow10 => .power (.ofNat 10) x
  | .powE => .power .euler x

end SurfaceFunction

end Calculator
