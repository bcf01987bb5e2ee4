import Calculator.Keypad

/-!
# The layout of the keypad

The columns of the grid are shared out among the buttons of each row: evenly, with what is left over
for the last button.
-/
namespace Calculator

/-- Columns shared out among buttons: evenly, with the rest for the last one. -/
def shares (columns : Int) : Nat → List Int
  | 0 => []
  | buttons + 1 =>
    let each := columns.fdiv (buttons + 1)
    List.replicate buttons each ++ [each + columns.fmod (buttons + 1)]

/-- Why columns cannot be shared out. -/
inductive ShareFault where
  | noButtons | negativeButtons
  deriving DecidableEq, Repr

/-- Columns shared out among a number of buttons, which has to be positive. -/
def shareColumns (buttons columns : Int) : Except ShareFault (List Int) :=
  if buttons = 0 then .error .noButtons
  else if buttons < 0 then .error .negativeButtons
  else .ok (shares columns buttons.toNat)

/-- A button in its place on a grid. -/
structure PlacedButton where
  text : List Char
  colours : Colours
  row : Nat
  column : Int
  columnSpan : Int
  deriving DecidableEq, Repr

/-- The buttons of a row side by side, from a column on. -/
def placeRow (row : Nat) (column : Int) : List (Key × Int) → List PlacedButton
  | [] => []
  | (key, span) :: rest =>
    ⟨key.text, key.role.colours, row, column, span⟩ :: placeRow row (column + span) rest

/-- The columns of the keypad: as many as its longest row has buttons. -/
def keypadColumns : Nat :=
  keypad.foldl (fun columns row => max columns row.length) 0

/-- The keypad on its grid. -/
def placedKeypad : List PlacedButton :=
  keypad.zipIdx.flatMap fun (keys, row) =>
    placeRow row 0 (keys.zip (shares keypadColumns keys.length))

/-- The science buttons in one row. -/
def placedScienceKeys : List PlacedButton :=
  scienceKeys.zipIdx.map fun (key, column) =>
    ⟨key.text, ButtonRole.function.colours, 0, column, 1⟩

end Calculator
