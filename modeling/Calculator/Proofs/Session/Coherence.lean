import Calculator.Elementary.GammaSeries
import Calculator.Proofs.Result
import Calculator.Session.Operation

/-!
# What every session keeps to

An operation changes a session in one of a few ways, whatever the evaluator and the library answer.
From these ways it follows what holds of every session that operations lead to: the memory is a
number, and what is left of the expression of a finished session is the front of the displayed last
answer.
-/
namespace Calculator.Session

/-- The ways in which an operation changes a session. -/
inductive Change (s : Session) : Session → Prop
  | unchanged : Change s s
  | appended (text : List Char) : Change s (s.append text)
  | shortened : Change s s.deleteLast
  | cleared : Change s s.clear
  | modeChosen (mode : AngleMode) : Change s { s with mode := mode }
  | finished (value : Binary64) : Change s (s.finishWith value)
  | failed (error : CalculationError) : Change s (s.fail error)
  | consumed : Change s s.consumed
  | addedToMemory (value : Binary64) : Change s (s.addToMemory value).consumed
  | notAdded (result : List Char) : Change s { s.consumed with result := result }
  | memoryCleared : Change s s.memoryClear

section Step

variable {s s' : Session} (evaluator : Evaluator) (library : FactorialLibrary)

/-- An evaluation that is not refused had nothing to evaluate, finishes with its value, or fails with
the error that it answers. -/
theorem evaluate_cases {result : Option Result} (h : s.evaluate evaluator = .ok (s', result)) :
    (s' = s ∧ result = none) ∨ (∃ value, s' = s.finishWith value ∧ result = some (.ok value)) ∨
      ∃ error, s' = s.fail error ∧ result = some (.error error) := by
  unfold evaluate at h
  split at h
  · cases h
    exact .inl ⟨rfl, rfl⟩
  · split at h
    · cases h
      exact .inr (.inl ⟨_, rfl, rfl⟩)
    · split at h
      · cases h
        exact .inr (.inr ⟨_, rfl, rfl⟩)
      · cases h

theorem change_memoryAdd (h : s.memoryAdd evaluator = .ok s') : Change s s' := by
  unfold memoryAdd at h
  split at h
  · cases h
    exact .consumed
  · split at h
    · cases h
      exact .addedToMemory _
    · split at h
      · cases h
        exact .notAdded _
      · cases h

/-- A factorial that is not refused had no number to take, or finishes with its value. -/
theorem factorial_cases {result : Option Result} (h : s.factorial library = .ok (s', result)) :
    (s' = s ∧ result = none) ∨ ∃ value, s' = s.finishWith value ∧ result = some (.ok value) := by
  unfold factorial at h
  split at h
  · cases h
    exact .inl ⟨rfl, rfl⟩
  · obtain ⟨value, -, finished⟩ := map_eq_ok h
    cases finished
    exact .inr ⟨value, rfl, rfl⟩

theorem change_perform (action : Action) (s : Session) :
    Change s (s.perform evaluator library action).1 := by
  cases action with
  | append text => exact .appended text
  | deleteLast => exact .shortened
  | clear => exact .cleared
  | toggleMode => exact .modeChosen _
  | memoryClear => exact .memoryCleared
  | memoryRecall => exact .appended _
  | factorial =>
    unfold perform
    cases h : s.factorial library with
    | ok outcome =>
      obtain ⟨next, result⟩ := outcome
      rcases factorial_cases library h with ⟨rfl, -⟩ | ⟨value, rfl, -⟩
      · exact .unchanged
      · exact .finished value
    | error failure => exact .unchanged
  | evaluate =>
    unfold perform
    cases h : s.evaluate evaluator with
    | ok outcome =>
      obtain ⟨next, result⟩ := outcome
      rcases evaluate_cases evaluator h with ⟨rfl, -⟩ | ⟨value, rfl, -⟩ | ⟨error, rfl, -⟩
      · exact .unchanged
      · exact .finished value
      · exact .failed error
    | error failure => exact .unchanged
  | memoryAdd =>
    unfold perform
    cases h : s.memoryAdd evaluator with
    | ok s' => exact change_memoryAdd evaluator h
    | error failure => exact .unchanged

/-- A token does what its action does; only the reply may be another one. -/
theorem press_eq_perform {token : List Char} {action : Action}
    (h : Action.ofToken? token = some action) (s : Session) :
    (s.press evaluator library token).1 = (s.perform evaluator library action).1 := by
  rw [press, h]
  dsimp only
  split
  · rename_i refused
    rw [refused]
  · rename_i done
    rw [done]

theorem change_operate (operation : Operation) (s : Session) :
    Change s (s.operate evaluator library operation).1 := by
  cases operation with
  | act action => exact change_perform evaluator library action s
  | press token =>
    cases h : Action.ofToken? token with
    | none =>
      rw [operate, press, h]
      exact .unchanged
    | some action =>
      rw [operate, press_eq_perform evaluator library h]
      exact change_perform evaluator library action s
  | chooseMode name =>
    cases h : AngleMode.ofName? name with
    | none =>
      simp only [operate, h]
      exact .unchanged
    | some mode =>
      simp only [operate, h]
      exact .modeChosen mode

end Step

/-- The memory is a number. A finished session has a front of the displayed last answer as its
expression, which is empty after a memory key, and shows that answer as long as anything is left. -/
structure Coherent (s : Session) : Prop where
  memory : s.memory ≠ .nan
  front : s.phase = .finished → s.expression <+: displayText s.answer
  shown : s.phase = .finished → s.expression ≠ [] → s.result = displayText s.answer

variable {s s' : Session}

theorem coherent_of_editing (memory : s.memory ≠ .nan) (editing : s.phase = .editing) :
    s.Coherent where
  memory := memory
  front finished := by
    rw [editing] at finished
    cases finished
  shown finished := by
    rw [editing] at finished
    cases finished

theorem coherent_of_empty (memory : s.memory ≠ .nan) (empty : s.expression = []) : s.Coherent where
  memory := memory
  front _ := by
    rw [empty]
    exact List.nil_prefix
  shown _ nonempty := absurd empty nonempty

theorem coherent_start (mode : AngleMode) : (start mode).Coherent :=
  coherent_of_editing (by intro h; cases h) rfl

@[simp] theorem memory_append (text : List Char) (s : Session) : (s.append text).memory = s.memory := by
  unfold append
  split <;> rfl

@[simp] theorem phase_append (text : List Char) (s : Session) : (s.append text).phase = .editing := rfl

/-- A total that is not a number is not kept. -/
theorem memory_addToMemory (value : Binary64) (h : s.memory ≠ .nan) :
    (s.addToMemory value).memory ≠ .nan := by
  unfold addToMemory
  dsimp only
  split
  · exact h
  · rename_i number
    intro total
    dsimp only at total
    rw [total] at number
    exact number rfl

namespace Coherent

theorem finishWith (h : s.Coherent) (value : Binary64) : (s.finishWith value).Coherent where
  memory := h.memory
  front _ := List.prefix_rfl
  shown _ _ := rfl

/-- What is left after the last character is taken away is still a front of the same text. -/
theorem deleteLast (h : s.Coherent) : s.deleteLast.Coherent where
  memory := h.memory
  front finished := (List.dropLast_prefix s.expression).trans (h.front finished)
  shown finished left := h.shown finished fun empty => left (by
    rw [Session.deleteLast, empty]
    rfl)

theorem change (h : s.Coherent) (change : Change s s') : s'.Coherent := by
  cases change with
  | unchanged => exact h
  | appended text => exact coherent_of_editing (by rw [memory_append]; exact h.memory) rfl
  | shortened => exact h.deleteLast
  | cleared => exact coherent_of_editing h.memory rfl
  -- nothing that is kept to depends on the mode
  | modeChosen mode => exact ⟨h.memory, h.front, h.shown⟩
  | finished value => exact h.finishWith value
  | failed error => exact coherent_of_editing h.memory rfl
  | consumed => exact coherent_of_empty h.memory rfl
  | addedToMemory value => exact coherent_of_empty (memory_addToMemory value h.memory) rfl
  | notAdded result => exact coherent_of_empty h.memory rfl
  | memoryCleared => exact coherent_of_empty (by intro none; cases none) rfl

/-- Every operation keeps a session coherent, and so does every sequence of them. -/
theorem run (h : s.Coherent) (evaluator : Evaluator) (library : FactorialLibrary)
    (operations : List Operation) : (s.run evaluator library operations).Coherent := by
  unfold Session.run
  induction operations generalizing s with
  | nil => exact h
  | cons operation operations ih =>
    exact ih (h.change (change_operate evaluator library operation s))

end Coherent

/-- In every session that operations lead to from a new one, with any evaluator and any library and
with refused operations among them, the memory is a number, a finished session has a front of the
displayed last answer as its expression, and it shows the last answer if that expression is not
empty. -/
theorem coherent_run (mode : AngleMode) (evaluator : Evaluator) (library : FactorialLibrary)
    (operations : List Operation) : ((start mode).run evaluator library operations).Coherent :=
  (coherent_start mode).run evaluator library operations

/-- After a result and one deletion the expression is a proper front of what is shown. -/
example :
    let s := (start .degrees).run standardEvaluator .series
      [.press ['7'], .press ['0'], .press ['='], .press "del".toList]
    s.expression = ['7'] ∧ s.result = ['7', '0'] ∧ s.phase = .finished := by
  decide +kernel

end Calculator.Session
