import Calculator.Elementary.GammaSeries
import Calculator.Proofs.Session.Exceptions
import Calculator.Session.Operation

/-!
# Operations field by field

Here the operations that evaluate assign the fields of a session one after the other, and an
exception leaves what has been assigned before it. They come to the same as the operations that
return a whole session or none, so a failed operation is never found half done.
-/
namespace Calculator

/-- An evaluator that throws exceptions. -/
abbrev ThrowingEvaluator := List Char → AngleMode → Binary64 → Except Thrown Binary64

/-- The evaluator with its exceptions as failures. -/
def ThrowingEvaluator.reporting (evaluator : ThrowingEvaluator) : Evaluator :=
  fun expression mode answer => (evaluator expression mode answer).mapError Thrown.failure

section Reporting

variable {evaluator : ThrowingEvaluator} {text : List Char} {mode : AngleMode} {answer : Binary64}

theorem reporting_value {value : Binary64} (read : evaluator text mode answer = .ok value) :
    evaluator.reporting text mode answer = .ok value := by
  rw [ThrowingEvaluator.reporting, read]
  rfl

theorem reporting_thrown {thrown : Thrown} (read : evaluator text mode answer = .error thrown) :
    evaluator.reporting text mode answer = .error thrown.failure := by
  rw [ThrowingEvaluator.reporting, read]
  rfl

end Reporting

/-- A computation that assigns fields of a session. An exception does not take them back. -/
abbrev Assigning (α : Type) := ExceptT Thrown (StateM Session) α

namespace Assigning

/-- The result or the exception, and the session in either case. -/
def outcome {α : Type} (computation : Assigning α) (s : Session) : Except Thrown α × Session :=
  computation.run.run s

variable (evaluator : ThrowingEvaluator)

def finishWith (value : Binary64) : Assigning Unit := do
  let text := displayText value
  modify ({ · with answer := value })
  modify ({ · with result := text })
  modify ({ · with expression := text })
  modify ({ · with phase := .finished })

def evaluate : Assigning (Option Result) := do
  let s ← get
  if s.isBlankExpression then return none
  match evaluator s.expression s.mode s.answer with
  | .error thrown =>
    if thrown.IsHandled then
      let error := thrown.toError
      modify ({ · with result := error.display })
      modify ({ · with expression := [] })
      modify ({ · with phase := .editing })
      return some (.error error)
    else throw thrown
  | .ok value =>
    finishWith value
    return some (.ok value)

def memoryAdd : Assigning Unit := do
  let s ← get
  unless s.isBlankExpression do
    match evaluator s.expression s.mode s.answer with
    | .error thrown =>
      if thrown.IsHandled then modify ({ · with result := ErrorKind.general.caption })
      else throw thrown
    | .ok value =>
      let total := s.memory + value
      unless total.isNaN do
        modify ({ · with memory := total })
        modify fun s => { s with result := displayText s.memory }
  modify ({ · with expression := [] })
  modify ({ · with phase := .finished })

section Steps

variable {α β : Type} (s : Session)

@[simp] theorem outcome_pure (x : α) : (pure x : Assigning α).outcome s = (.ok x, s) := rfl

@[simp] theorem outcome_throw (thrown : Thrown) :
    (throw thrown : Assigning α).outcome s = (.error thrown, s) := rfl

@[simp] theorem outcome_modify (f : Session → Session) :
    (modify f : Assigning PUnit).outcome s = (.ok ⟨⟩, f s) := rfl

@[simp] theorem outcome_get : (get : Assigning Session).outcome s = (.ok s, s) := rfl

/-- What has been assigned stays, and an exception passes by what comes next. -/
@[simp] theorem outcome_bind (first : Assigning α) (next : α → Assigning β) :
    (first >>= next).outcome s =
      match first.outcome s with
      | (.ok x, s) => (next x).outcome s
      | (.error thrown, s) => (.error thrown, s) := by
  have run : (first >>= next).outcome s =
      match first.outcome s with
      | (result, s) => (ExceptT.bindCont next result).run s := rfl
  rw [run]
  cases first.outcome s with
  | mk result s => cases result <;> rfl

@[simp] theorem outcome_map (f : α → β) (computation : Assigning α) :
    (f <$> computation).outcome s =
      match computation.outcome s with
      | (.ok x, s) => (.ok (f x), s)
      | (.error thrown, s) => (.error thrown, s) := by
  rw [← bind_pure_comp, outcome_bind]
  rfl

end Steps

@[simp] theorem outcome_finishWith (value : Binary64) (s : Session) :
    (finishWith value).outcome s = (.ok (), s.finishWith value) := by
  simp [finishWith, Session.finishWith]

section Outcomes

variable {evaluator : ThrowingEvaluator} {s : Session}

theorem evaluate_blank (blank : s.isBlankExpression = true) :
    (evaluate evaluator).outcome s = (.ok none, s) := by
  simp [evaluate, blank]

theorem evaluate_value {value : Binary64} (pending : s.isBlankExpression = false)
    (h : evaluator s.expression s.mode s.answer = .ok value) :
    (evaluate evaluator).outcome s = (.ok (some (.ok value)), s.finishWith value) := by
  simp [evaluate, pending, h]

theorem evaluate_handled {thrown : Thrown} (pending : s.isBlankExpression = false)
    (h : evaluator s.expression s.mode s.answer = .error thrown) (handled : thrown.IsHandled) :
    (evaluate evaluator).outcome s =
      (.ok (some (.error thrown.toError)), s.fail thrown.toError) := by
  simp [evaluate, pending, h, handled, Session.fail]

theorem evaluate_escaping {thrown : Thrown} (pending : s.isBlankExpression = false)
    (h : evaluator s.expression s.mode s.answer = .error thrown) (foreign : ¬ thrown.IsHandled) :
    (evaluate evaluator).outcome s = (.error thrown, s) := by
  simp [evaluate, pending, h, foreign]

theorem memoryAdd_blank (blank : s.isBlankExpression = true) :
    (memoryAdd evaluator).outcome s = (.ok (), s.consumed) := by
  simp [memoryAdd, blank, Session.consumed]

theorem memoryAdd_value {value : Binary64} (pending : s.isBlankExpression = false)
    (h : evaluator s.expression s.mode s.answer = .ok value) :
    (memoryAdd evaluator).outcome s = (.ok (), (s.addToMemory value).consumed) := by
  cases number : (s.memory + value).isNaN <;>
    simp [memoryAdd, pending, h, number, Session.consumed, Session.addToMemory]

theorem memoryAdd_handled {thrown : Thrown} (pending : s.isBlankExpression = false)
    (h : evaluator s.expression s.mode s.answer = .error thrown) (handled : thrown.IsHandled) :
    (memoryAdd evaluator).outcome s =
      (.ok (), { s.consumed with result := ErrorKind.general.caption }) := by
  simp [memoryAdd, pending, h, handled, Session.consumed]

theorem memoryAdd_escaping {thrown : Thrown} (pending : s.isBlankExpression = false)
    (h : evaluator s.expression s.mode s.answer = .error thrown) (foreign : ¬ thrown.IsHandled) :
    (memoryAdd evaluator).outcome s = (.error thrown, s) := by
  simp [memoryAdd, pending, h, foreign]

end Outcomes

/-- The session and the reply that an outcome comes to. -/
def performed {α : Type} (answer : α → Reply) : Except Thrown α × Session → Session × Reply
  | (.ok x, s) => (s, answer x)
  | (.error thrown, s) => (s, .refused (.failed thrown.failure))

section Agreement

variable (library : FactorialLibrary) (s : Session)

/-- An evaluation that returns a whole session or none does what the assignments do. -/
theorem perform_evaluate : s.perform evaluator.reporting library .evaluate =
    performed .result ((evaluate evaluator).outcome s) := by
  cases blank : s.isBlankExpression with
  | true =>
    rw [evaluate_blank blank, Session.perform, Session.evaluate, if_pos blank]
    rfl
  | false =>
    cases read : evaluator s.expression s.mode s.answer with
    | ok value =>
      rw [evaluate_value blank read]
      simp [Session.perform, Session.evaluate, reporting_value read, blank, performed]
    | error thrown =>
      by_cases handled : thrown.IsHandled
      · rw [evaluate_handled blank read handled]
        simp [Session.perform, Session.evaluate, reporting_thrown read, blank,
          thrown.isHandled_failure, thrown.toError_failure, handled, performed]
      · rw [evaluate_escaping blank read handled]
        simp [Session.perform, Session.evaluate, reporting_thrown read, blank,
          thrown.isHandled_failure, handled, performed]

/-- So does an addition to the memory. -/
theorem perform_memoryAdd : s.perform evaluator.reporting library .memoryAdd =
    performed (fun _ => .done) ((memoryAdd evaluator).outcome s) := by
  cases blank : s.isBlankExpression with
  | true =>
    rw [memoryAdd_blank blank, Session.perform, Session.memoryAdd, if_pos blank]
    rfl
  | false =>
    cases read : evaluator s.expression s.mode s.answer with
    | ok value =>
      rw [memoryAdd_value blank read]
      simp [Session.perform, Session.memoryAdd, reporting_value read, blank, performed]
    | error thrown =>
      by_cases handled : thrown.IsHandled
      · rw [memoryAdd_handled blank read handled]
        simp [Session.perform, Session.memoryAdd, reporting_thrown read, blank,
          thrown.isHandled_failure, handled, performed]
      · rw [memoryAdd_escaping blank read handled]
        simp [Session.perform, Session.memoryAdd, reporting_thrown read, blank,
          thrown.isHandled_failure, handled, performed]

end Agreement

/-- An evaluator throws an exception at a session with an expression. If its family is handled, both
operations take place: the evaluation answers and shows the error that the exception becomes and
empties the expression, and the addition shows a general error and uses the expression up; memory, last
answer and mode stay. Any other exception passes through both operations before a field is assigned.
The operations that return whole sessions do the same. -/
theorem outcome_of_thrown (library : FactorialLibrary) (s : Session) (thrown : Thrown)
    (pending : s.isBlankExpression = false)
    (read : evaluator s.expression s.mode s.answer = .error thrown) :
    (thrown.IsHandled →
      thrown.BecomesError thrown.toError ∧ thrown.toError.display ≠ [] ∧
      (evaluate evaluator).outcome s =
        (.ok (some (.error thrown.toError)),
          ⟨[], thrown.toError.display, s.memory, s.answer, .editing, s.mode⟩) ∧
      (memoryAdd evaluator).outcome s =
        (.ok (), ⟨[], "Error".toList, s.memory, s.answer, .finished, s.mode⟩)) ∧
    (¬ thrown.IsHandled →
      (evaluate evaluator).outcome s = (.error thrown, s) ∧
      (memoryAdd evaluator).outcome s = (.error thrown, s)) ∧
    s.perform evaluator.reporting library .evaluate =
      performed .result ((evaluate evaluator).outcome s) ∧
    s.perform evaluator.reporting library .memoryAdd =
      performed (fun _ => .done) ((memoryAdd evaluator).outcome s) := by
  refine ⟨fun handled => ⟨thrown.becomesError_toError, thrown.toError.display_ne_nil, ?_, ?_⟩,
    fun foreign => ⟨evaluate_escaping pending read foreign, memoryAdd_escaping pending read foreign⟩,
    perform_evaluate evaluator library s, perform_memoryAdd evaluator library s⟩
  · exact evaluate_handled pending read handled
  · exact memoryAdd_handled pending read handled

/-- An exception of two families: a division by zero that is an error of the calculation is kept. -/
def divisionByZero : Thrown where
  name := ErrorKind.divisionByZero.name
  text := ErrorKind.divisionByZero.caption
  families := [.calculation, .value, .zeroDivision, .arithmetic]
  error? := some ⟨.divisionByZero, []⟩
  name_ne_nil := by decide
  calculation_iff := by decide
  value_of_calculation _ := by decide
  arithmetic_of_zeroDivision _ := by decide
  zeroDivision_iff error own := by
    cases own
    decide

theorem outcome_of_divisionByZero :
    (evaluate fun _ _ _ => .error divisionByZero).outcome
        ⟨"1/0".toList, [], .infinite .positive, .nan, .finished, .radians⟩ =
      (.ok (some (.error ⟨.divisionByZero, []⟩)),
        ⟨[], "Division by zero is not allowed.".toList, .infinite .positive, .nan, .editing,
          .radians⟩) := by
  have outcome := outcome_of_thrown (fun _ _ _ => .error divisionByZero) .series
    ⟨"1/0".toList, [], .infinite .positive, .nan, .finished, .radians⟩ divisionByZero
    (by decide) rfl
  exact (outcome.1 (by decide)).2.2.1

end Assigning

end Calculator
