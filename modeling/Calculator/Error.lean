/-!
# Errors of a calculation

An error has a kind and a detail. The display shows a fixed caption for most kinds; an error of the
last kind shows its own detail. Evaluators may also fail for reasons outside the calculation, and
each such failure counts as one of these errors.
-/
namespace Calculator

inductive ErrorKind where
  | general | divisionByZero | malformed | unknownIdentifier | operandType | tooLarge | other
  deriving DecidableEq, Repr

namespace ErrorKind

/-- The name of a kind in reports. -/
def name : ErrorKind → List Char
  | .general => "CalculatorError".toList
  | .divisionByZero => "DivisionByZeroError".toList
  | .malformed => "ExpressionSyntaxError".toList
  | .unknownIdentifier => "UnknownIdentifierError".toList
  | .operandType => "OperandTypeError".toList
  | .tooLarge => "InputTooLargeError".toList
  | .other => "EvaluationError".toList

/-- The text on the display for an error without detail. -/
def caption : ErrorKind → List Char
  | .general => "Error".toList
  | .divisionByZero => "Division by zero is not allowed.".toList
  | .malformed => "Invalid expression".toList
  | .unknownIdentifier => "Invalid expression".toList
  | .operandType => "Invalid input".toList
  | .tooLarge => "Expression is too large".toList
  | .other => "Error".toList

end ErrorKind

/-- The text, or another one if it is empty. -/
def orElseText (text fallback : List Char) : List Char :=
  if text = [] then fallback else text

structure CalculationError where
  kind : ErrorKind
  detail : List Char
  deriving DecidableEq, Repr

namespace CalculationError

/-- What the user reads. -/
def display (e : CalculationError) : List Char :=
  if e.kind = .other then orElseText e.detail e.kind.caption else e.kind.caption

/-- The full text: the detail, or what the user reads if there is none. -/
def text (e : CalculationError) : List Char :=
  orElseText e.detail e.display

end CalculationError

/-- Why an evaluator, or a library, gave no value. -/
inductive Failure where
  /-- An error of the calculation itself. -/
  | reported (error : CalculationError)
  /-- The evaluator ran out of room for nested calls. -/
  | recursionLimit (text : List Char)
  /-- A division by zero that the evaluator did not recognise. -/
  | zeroDivision (text : List Char)
  /-- Another failure of arithmetic or of a value, with its name. -/
  | numeric (name text : List Char)
  /-- A failure that is not about values at all, with its name. -/
  | foreign (name text : List Char)
  deriving DecidableEq, Repr

namespace Failure

/-- The failure as an error of the calculation. -/
def toError : Failure → CalculationError
  | .reported error => error
  | .recursionLimit _ => ⟨.tooLarge, "nesting exceeds the interpreter limit".toList⟩
  | .zeroDivision text => ⟨.divisionByZero, text⟩
  | .numeric name text => ⟨.other, orElseText text name⟩
  | .foreign name text => ⟨.other, orElseText text name⟩

/-- The failure becomes an error on the display; a foreign one is passed on to the caller. -/
def isHandled : Failure → Bool
  | .foreign _ _ => false
  | _ => true

end Failure

end Calculator
