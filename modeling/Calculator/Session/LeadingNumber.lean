import Calculator.Numeral
import Calculator.Text.Blank

/-!
# The number at the start of an expression

The factorial acts on the number an expression starts with, after blanks: a sign or none, and then
either a numeral or the name of infinity. What follows the number does not matter.
-/
namespace Calculator

/-- The name of infinity in expressions and on the display. -/
def infinityName : List Char := "Infinity".toList

/-- The number without sign at the start of a text. -/
def unsignedNumber? (text : List Char) : Option Binary64 :=
  if infinityName.isPrefixOf text then some (.infinite .positive)
  else (Numeral.scan? text).map fun (numeral, _) => numeral.value

/-- The number at the start of an expression. -/
def leadingNumber? (expression : List Char) : Option Binary64 :=
  let (sign, text) := Sign.scan (expression.dropWhile isBlank)
  (unsignedNumber? text).map fun x => if sign = some .negative then x.neg else x

end Calculator
