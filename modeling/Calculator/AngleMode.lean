/-!
# Angle modes

Angles are entered and shown in degrees or in radians. A mode is chosen by its short name.
-/
namespace Calculator

inductive AngleMode where
  | degrees | radians
  deriving DecidableEq, Repr

namespace AngleMode

/-- The name by which a mode is chosen. -/
def name : AngleMode → List Char
  | .degrees => "deg".toList
  | .radians => "rad".toList

/-- The text on the display. -/
def label : AngleMode → List Char
  | .degrees => "DEG".toList
  | .radians => "RAD".toList

def toggled : AngleMode → AngleMode
  | .degrees => .radians
  | .radians => .degrees

/-- The mode of a name. -/
def ofName? (name : List Char) : Option AngleMode :=
  if name = AngleMode.degrees.name then some .degrees
  else if name = AngleMode.radians.name then some .radians
  else none

theorem ofName?_name (m : AngleMode) : ofName? m.name = some m := by
  cases m <;> rfl

end AngleMode

end Calculator
