import Calculator.Proofs.Session.Coherence

/-!
# The history of the registers

Few operations of a session concern its memory or its last answer. What these operations do is an
event, and the events of a run, one after another, determine both registers: the memory is what they
add up to, and the last answer is the last one among them.
-/
namespace Calculator

/-- What an operation does to the registers of a session. -/
inductive RegisterEvent where
  | memoryCleared
  /-- A value is to be added to the memory. -/
  | memoryAdded (value : Binary64)
  | answered (value : Binary64)

namespace RegisterEvent

/-- The memory after an event. A total that is not a number is not kept. -/
def remember (memory : Binary64) : RegisterEvent → Binary64
  | .memoryCleared => .zero
  | .memoryAdded value => if (memory + value).isNaN then memory else memory + value
  | .answered _ => memory

/-- The answer that an event gives. -/
def answer? : RegisterEvent → Option Binary64
  | .answered value => some value
  | _ => none

end RegisterEvent

/-- The action of an operation: of a token that stands for one, and none of choosing the mode. -/
def Operation.action? : Operation → Option Action
  | .act action => some action
  | .press token => Action.ofToken? token
  | .chooseMode _ => none

namespace Session

section Events

variable (evaluator : Evaluator) (library : FactorialLibrary)

/-- The value of the expression as it is, if there is an expression and its evaluation succeeds. -/
def value? (s : Session) : Option Binary64 :=
  if s.isBlankExpression then none else (evaluator s.expression s.mode s.answer).toOption

/-- The factorial of the number that the expression starts with, if there is such a number and the
library does not fail. -/
def factorialValue? (s : Session) : Option Binary64 :=
  (leadingNumber? s.expression).bind fun x => (x.factorial library).toOption

/-- What an operation is going to do to the registers of a session, if anything. -/
def event? (s : Session) (operation : Operation) : Option RegisterEvent :=
  match operation.action? with
  | some .memoryClear => some .memoryCleared
  | some .memoryAdd => (s.value? evaluator).map .memoryAdded
  | some .evaluate => (s.value? evaluator).map .answered
  | some .factorial => (s.factorialValue? library).map .answered
  | _ => none

/-- The events of a run. -/
def history : List Operation → Session → List RegisterEvent
  | [], _ => []
  | operation :: operations, s =>
    (s.event? evaluator library operation).toList ++
      history operations (s.operate evaluator library operation).1

end Events

/-! ## One operation -/

/-- The registers after an event, or without one. -/
structure Recorded (s : Session) (event : Option RegisterEvent) (s' : Session) : Prop where
  memory : s'.memory = event.elim s.memory (RegisterEvent.remember s.memory)
  answer : s'.answer = (event.bind RegisterEvent.answer?).getD s.answer

section Step

variable (evaluator : Evaluator) (library : FactorialLibrary) (s : Session)

theorem recorded_append (text : List Char) : Recorded s none (s.append text) := by
  unfold append
  split <;> exact ⟨rfl, rfl⟩

theorem recorded_finishWith (value : Binary64) :
    Recorded s (some (.answered value)) (s.finishWith value) :=
  ⟨rfl, rfl⟩

theorem recorded_addToMemory (value : Binary64) :
    Recorded s (some (.memoryAdded value)) (s.addToMemory value).consumed := by
  unfold addToMemory
  dsimp only
  split
  · rename_i notNumber
    exact ⟨(if_pos notNumber).symm, rfl⟩
  · rename_i number
    exact ⟨(if_neg number).symm, rfl⟩

/-- A failure leaves both registers alone, whether it is handled or not. -/
theorem recorded_evaluate : Recorded s ((s.value? evaluator).map .answered)
    (s.perform evaluator library .evaluate).1 := by
  unfold perform evaluate value?
  split
  · exact ⟨rfl, rfl⟩
  · cases evaluator s.expression s.mode s.answer with
    | ok value => exact s.recorded_finishWith value
    | error failure =>
      dsimp only
      cases failure.isHandled with
      | true => exact ⟨rfl, rfl⟩
      | false => exact ⟨rfl, rfl⟩

theorem recorded_memoryAdd : Recorded s ((s.value? evaluator).map .memoryAdded)
    (s.perform evaluator library .memoryAdd).1 := by
  unfold perform memoryAdd value?
  split
  · exact ⟨rfl, rfl⟩
  · cases evaluator s.expression s.mode s.answer with
    | ok value => exact s.recorded_addToMemory value
    | error failure =>
      dsimp only
      cases failure.isHandled with
      | true => exact ⟨rfl, rfl⟩
      | false => exact ⟨rfl, rfl⟩

theorem recorded_factorial : Recorded s ((s.factorialValue? library).map .answered)
    (s.perform evaluator library .factorial).1 := by
  unfold perform factorial factorialValue?
  cases leadingNumber? s.expression with
  | none => exact ⟨rfl, rfl⟩
  | some x =>
    dsimp only [Option.bind_some]
    cases x.factorial library with
    | ok value => exact s.recorded_finishWith value
    | error failure => exact ⟨rfl, rfl⟩

/-- An operation does to the registers what its event says. -/
theorem recorded_operate (operation : Operation) :
    Recorded s (s.event? evaluator library operation) (s.operate evaluator library operation).1 := by
  have performed : ∀ action, operation.action? = some action →
      Recorded s (s.event? evaluator library operation) (s.perform evaluator library action).1 := by
    intro action same
    rw [event?, same]
    cases action with
    | append text => exact s.recorded_append text
    | memoryRecall => exact s.recorded_append _
    | evaluate => exact recorded_evaluate evaluator library s
    | memoryAdd => exact recorded_memoryAdd evaluator library s
    | factorial => exact recorded_factorial evaluator library s
    | deleteLast | clear | toggleMode | memoryClear => exact ⟨rfl, rfl⟩
  cases operation with
  | act action => exact performed action rfl
  | press token =>
    cases found : Action.ofToken? token with
    | none =>
      rw [event?, Operation.action?, operate, press, found]
      exact ⟨rfl, rfl⟩
    | some action =>
      rw [operate, press_eq_perform evaluator library found]
      exact performed action found
  | chooseMode name =>
    rw [event?, Operation.action?, operate]
    cases AngleMode.ofName? name with
    | none => exact ⟨rfl, rfl⟩
    | some mode => exact ⟨rfl, rfl⟩

end Step

/-! ## Runs -/

section Run

variable (evaluator : Evaluator) (library : FactorialLibrary) (operations : List Operation)
  (s : Session)

theorem memory_run : (s.run evaluator library operations).memory =
    (history evaluator library operations s).foldl RegisterEvent.remember s.memory := by
  induction operations generalizing s with
  | nil => rfl
  | cons operation operations ih =>
    have step := (recorded_operate evaluator library s operation).memory
    have further := ih (s.operate evaluator library operation).1
    rw [history, List.foldl_append]
    refine further.trans ?_
    rw [step]
    cases s.event? evaluator library operation with
    | none => rfl
    | some event => rfl

theorem answer_run : (s.run evaluator library operations).answer =
    ((history evaluator library operations s).filterMap RegisterEvent.answer?).getLast?.getD
      s.answer := by
  induction operations generalizing s with
  | nil => rfl
  | cons operation operations ih =>
    have step := (recorded_operate evaluator library s operation).answer
    have further := ih (s.operate evaluator library operation).1
    rw [history, List.filterMap_append, List.getLast?_append, Option.getD_or]
    refine further.trans ?_
    rw [step]
    cases s.event? evaluator library operation with
    | none => rfl
    | some event => cases event <;> rfl

end Run

/-- In every session that operations lead to from a new one, with any evaluator and any library and
with refused operations among them, the memory is what the events of the run add up to from zero, and
the last answer is the last one that an event has given, or zero if there is none. -/
theorem registers_run (mode : AngleMode) (evaluator : Evaluator) (library : FactorialLibrary)
    (operations : List Operation) :
    let s := (start mode).run evaluator library operations
    let events := history evaluator library operations (start mode)
    s.memory = events.foldl RegisterEvent.remember .zero ∧
      s.answer = (events.filterMap RegisterEvent.answer?).getLast?.getD .zero :=
  ⟨memory_run evaluator library operations (start mode),
    answer_run evaluator library operations (start mode)⟩

end Session

end Calculator
