import Calculator.Elementary.Factorial
import Calculator.Evaluation
import Calculator.Session.LeadingNumber

/-!
# Calculator sessions

A session holds the expression being edited, the text of the last result, a memory, the last answer
and the angle mode. After a result the session is finished: a digit or a parenthesis then starts a
new expression, while an operator or a function goes on from the result. An evaluation that fails
shows the error and empties the expression, and leaves memory, last answer and mode alone; only a
failure that is foreign to calculation reaches the caller, and then nothing has changed. A factorial
between whole numbers comes from a library, whose failures all reach the caller in the same way.
-/
namespace Calculator

inductive Phase where
  | editing | finished
  deriving DecidableEq, Repr

def Phase.name : Phase → List Char
  | .editing => "editing".toList
  | .finished => "finished".toList

/-- What computes the value of an expression, in an angle mode and with a last answer. -/
abbrev Evaluator := List Char → AngleMode → Binary64 → Except Failure Binary64

/-- The evaluator of the standard registry. -/
def standardEvaluator : Evaluator := fun expression mode answer =>
  (evaluate expression mode answer).mapError fun fault => .reported fault.toError

/-- The value of an evaluation, or the error it is reported as. -/
abbrev Result := Except CalculationError Binary64

/-- The text of a number on the display. -/
def displayText (x : Binary64) : List Char :=
  NumberFormat.display.text x

/-- The text of a result on the display. -/
def Result.display (r : Result) : List Char :=
  match r with
  | .ok value => displayText value
  | .error error => error.display

structure Session where
  expression : List Char
  result : List Char
  memory : Binary64
  answer : Binary64
  phase : Phase
  mode : AngleMode
  deriving DecidableEq

namespace Session

/-- A new session. -/
def start (mode : AngleMode) : Session where
  expression := []
  result := []
  memory := .zero
  answer := .zero
  phase := .editing
  mode := mode

/-- A text that starts a new expression after a result: it holds a digit or is a parenthesis. -/
def startsAnew (text : List Char) : Bool :=
  text.any (fun c => (digitValue? c).isSome) || text == ['(']

/-- Adds a text to the expression. -/
def append (text : List Char) (s : Session) : Session :=
  let s := if s.phase = .finished ∧ startsAnew text then { s with expression := [], result := [] }
    else s
  { s with expression := s.expression ++ text, phase := .editing }

def deleteLast (s : Session) : Session :=
  { s with expression := s.expression.dropLast }

def clear (s : Session) : Session :=
  { s with expression := [], result := [], phase := .editing }

def toggleMode (s : Session) : Session :=
  { s with mode := s.mode.toggled }

/-- The session after a result: its value is the last answer, its text result and expression. -/
def finishWith (value : Binary64) (s : Session) : Session :=
  { s with
    expression := displayText value
    result := displayText value
    answer := value
    phase := .finished }

/-- The session after a failed evaluation. -/
def fail (error : CalculationError) (s : Session) : Session :=
  { s with expression := [], result := error.display, phase := .editing }

/-- There is nothing to evaluate. -/
def isBlankExpression (s : Session) : Bool :=
  s.expression.all isBlank

/-- Evaluates the expression, if there is one. -/
def evaluate (evaluator : Evaluator) (s : Session) : Except Failure (Session × Option Result) :=
  if s.isBlankExpression then .ok (s, none)
  else match evaluator s.expression s.mode s.answer with
    | .ok value => .ok (s.finishWith value, some (.ok value))
    | .error failure =>
      if failure.isHandled then .ok (s.fail failure.toError, some (.error failure.toError))
      else .error failure

/-- Takes the factorial of the number that the expression starts with, if it starts with one. -/
def factorial (library : FactorialLibrary) (s : Session) :
    Except Failure (Session × Option Result) :=
  match leadingNumber? s.expression with
  | none => .ok (s, none)
  | some x => (x.factorial library).map fun value => (s.finishWith value, some (.ok value))

/-- The session with its expression used up by a memory key. -/
def consumed (s : Session) : Session :=
  { s with expression := [], phase := .finished }

/-- Adds a value to the memory and shows the new total, unless that is not a number. -/
def addToMemory (value : Binary64) (s : Session) : Session :=
  let total := s.memory + value
  if total.isNaN then s else { s with memory := total, result := displayText total }

/-- Adds the value of the expression, if there is one, to the memory. -/
def memoryAdd (evaluator : Evaluator) (s : Session) : Except Failure Session :=
  if s.isBlankExpression then .ok s.consumed
  else match evaluator s.expression s.mode s.answer with
    | .ok value => .ok (s.addToMemory value).consumed
    | .error failure =>
      if failure.isHandled then
        .ok { s.consumed with result := ErrorKind.general.caption }
      else .error failure

def memoryClear (s : Session) : Session :=
  { s.consumed with memory := .zero, result := ['0'] }

/-- Adds the text of the memory to the expression. -/
def memoryRecall (s : Session) : Session :=
  s.append (displayText s.memory)

end Session

end Calculator
