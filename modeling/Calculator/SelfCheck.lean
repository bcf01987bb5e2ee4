import Calculator.Elementary.GammaSeries
import Calculator.Session.Operation

/-!
# The built-in checks

A run without an expression evaluates a fixed set of examples and reports for each whether it came
out as expected. Some examples only pass or fail; others compare an expected text with an actual one.
-/
namespace Calculator

/-- The display of an expression's value, or the kind of its error with what the user reads. -/
def valueText (expression : List Char) (mode : AngleMode) (answer : Binary64) : List Char :=
  match evaluate expression mode answer with
  | .ok value => displayText value
  | .error fault => fault.kind.name ++ ": ".toList ++ fault.toError.display

namespace SelfCheck

/-- An example that passes or fails. -/
structure Check where
  label : List Char
  passed : Bool

/-- An example with the text it should give and the text it gives. -/
structure Comparison where
  label : List Char
  expected : List Char
  actual : List Char

/-- The texts agree. -/
def Comparison.passed (c : Comparison) : Bool :=
  c.expected == c.actual

/-- The session after a sequence of tokens. -/
def pressAll (tokens : List String) : Session :=
  (Session.start .degrees).run standardEvaluator .series (tokens.map fun token => .press token.toList)

/-- Expressions with the displays of their values in degrees. -/
def values : List Comparison :=
  [("3+4*2", "11"), ("(3+4)*2", "14"), ("2^3^2", "512"), ("10/05", "2"), ("sqrt(-1)", "NaN"),
    ("pow10(400)", "Infinity")].map fun ((expression, expected) : String × String) =>
      ⟨expression.toList, expected.toList, valueText expression.toList .degrees .zero⟩

/-- Examples of the angle modes and of the last answer. -/
def contexts : List Comparison :=
  [⟨"sin(30) [DEG]".toList, "0.5".toList, valueText "sin(30)".toList .degrees .zero⟩,
    ⟨"sin(30) [RAD]".toList, "-0.988031624092862".toList,
      valueText "sin(30)".toList .radians .zero⟩,
    ⟨"ans*3 with ans=4".toList, "12".toList, valueText "ans*3".toList .degrees (.ofNat 4)⟩]

/-- A call of a surface function against the function itself. -/
def registryComparison (f : SurfaceFunction) (argument : Nat) (mode : AngleMode) : Comparison :=
  let call := f.name ++ '(' :: natText argument ++ [')']
  ⟨call ++ " [".toList ++ mode.label ++ "] matches registry".toList,
    displayText (f.apply mode (.ofNat argument)), valueText call mode .zero⟩

/-- Calls of surface functions in both angle modes. -/
def registryComparisons : List Comparison :=
  [(SurfaceFunction.sin, 30), (.arcsin, 1), (.cos, 60), (.log, 1000), (.pow10, 2)].flatMap
    fun (f, argument) => [AngleMode.degrees, .radians].map (registryComparison f argument)

/-- Factorials of displayed digits. -/
def factorials : List Comparison :=
  [("5", "120"), ("0", "1")].map fun ((digit, expected) : String × String) =>
    ⟨digit.toList ++ ['!'], expected.toList, (pressAll [digit, "factorial"]).result⟩

/-- The expression is refused as a division by zero. -/
def dividesByZero (expression : List Char) : Bool :=
  match evaluate expression .radians .zero with
  | .ok _ => false
  | .error fault => fault.kind == .divisionByZero

/-- Expressions that divide by zero. -/
def divisions : List Check :=
  ["5/0", "5/(3-3)"].map fun (expression : String) =>
    ⟨(expression ++ " raises DivisionByZeroError").toList, dividesByZero expression.toList⟩

/-- The canonical form of an expression keeps the name it starts with. -/
def keepsName : Bool :=
  match canonicalize "mean(e)+e".toList .radians .zero with
  | .ok text => "mean(".toList.isPrefixOf text
  | .error _ => false

/-- The value of the session's expression. -/
def valueOf (s : Session) : Option Binary64 :=
  match s.evaluate standardEvaluator with
  | .ok (_, some (.ok value)) => some value
  | _ => none

/-- Examples of whole sessions. -/
def sessions : List Check :=
  let sum := pressAll ["3", "+", "4", "*", "2", "="]
  let next := (sum.press standardEvaluator .series ['5']).1
  let recalled := pressAll ["MC", "7", "M+", "MR"]
  let negative := pressAll ["-", "3", "factorial"]
  let once := pressAll ["sin", "3", "0", ")"]
  let twice := pressAll ["mode", "mode", "sin", "3", "0", ")"]
  [⟨"evaluate shows 11".toList, sum.result == "11".toList⟩,
    ⟨"digit after result starts a new expression".toList, next.expression == ['5']⟩,
    ⟨"delete on empty buffer is a no-op".toList, (pressAll ["del"]).expression == []⟩,
    ⟨"memory add then recall".toList,
      recalled.memory == .ofNat 7 && recalled.expression == ['7']⟩,
    ⟨"factorial of negative is NaN".toList, negative.answer.isNaN⟩,
    ⟨"double mode toggle restores sin(30)".toList, valueOf once == valueOf twice⟩]

def checks : List Check :=
  divisions ++ [⟨"euler substitution keeps identifiers intact".toList, keepsName⟩] ++ sessions

def comparisons : List Comparison :=
  values ++ contexts ++ registryComparisons ++ factorials

/-- The labels of what did not come out as expected. -/
def failures (checks : List Check) (comparisons : List Comparison) : List (List Char) :=
  (checks.filter fun check => !check.passed).map (·.label) ++
    (comparisons.filter fun comparison => !comparison.passed).map (·.label)

/-- The word for an outcome. -/
def status (passed : Bool) : List Char :=
  if passed then "OK".toList else "FAIL".toList

/-- The line of a check. -/
def checkLine (check : Check) : List Char :=
  check.label ++ ": ".toList ++ status check.passed

/-- The lines of a comparison. -/
def comparisonLines (comparison : Comparison) : List (List Char) :=
  ["- ".toList ++ comparison.label ++ ": ".toList ++ status comparison.passed,
    "  expected: ".toList ++ comparison.expected,
    "  actual:   ".toList ++ comparison.actual]

/-- The lines after all others. -/
def summary (failures : List (List Char)) : List (List Char) :=
  if failures = [] then ["".toList, "All regression checks passed.".toList]
  else ["".toList, "FAILED CHECKS:".toList] ++ failures.map ("- ".toList ++ ·)

/-- The whole report. -/
def report (checks : List Check) (comparisons : List Comparison) : List (List Char) :=
  checks.map checkLine ++ ["".toList, "Expected vs Actual:".toList] ++
    comparisons.flatMap comparisonLines ++ summary (failures checks comparisons)

end SelfCheck

end Calculator
