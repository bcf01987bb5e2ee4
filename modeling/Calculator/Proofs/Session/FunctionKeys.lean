import Calculator.Proofs.Session.Recalled

/-!
# Function keys after a result

Whether a text starts a new expression after a result is taken from its characters and not from the
key that sends it. One of the surface functions is spelled with digits, so its key throws the result
away, while the keys of all the others go on from it.
-/
namespace Calculator.Session

/-- The key of a function opens a call of it. -/
theorem ofToken?_functionName (f : SurfaceFunction) :
    Action.ofToken? f.name = some (.append (f.name ++ ['('])) := by
  cases f <;> rfl

/-- Of the surface functions only the power of ten is spelled with a digit. -/
theorem startsAnew_opened_iff (f : SurfaceFunction) :
    startsAnew (f.name ++ ['(']) = true ↔ f = .pow10 := by
  cases f <;> decide

section Step

variable (evaluator : Evaluator) (library : FactorialLibrary) (s : Session)

theorem press_functionName (f : SurfaceFunction) :
    s.press evaluator library f.name = (s.append (f.name ++ ['(']), .done) := by
  rw [press, ofToken?_functionName]
  rfl

theorem press_function {f : SurfaceFunction} (other : f ≠ .pow10) :
    s.press evaluator library f.name =
      ({ s with expression := s.expression ++ f.name ++ ['('], phase := .editing }, .done) := by
  have goesOn : startsAnew (f.name ++ ['(']) = false :=
    Bool.eq_false_iff.2 fun anew => other ((startsAnew_opened_iff f).1 anew)
  rw [press_functionName, append_goesOn goesOn, List.append_assoc]

theorem press_pow10 (finished : s.phase = .finished) :
    s.press evaluator library SurfaceFunction.pow10.name =
      ({ s with expression := "pow10(".toList, result := [], phase := .editing }, .done) := by
  rw [press_functionName, append_startsAnew finished ((startsAnew_opened_iff .pow10).2 rfl)]
  rfl

end Step

/-- In every finished session that operations lead to, the key of any function but the power of ten
goes on from what is left of the displayed last answer: it adds the name and a parenthesis to the
expression and goes back to editing. The key of the power of ten starts a new expression instead and
also clears the shown result. Nothing else changes, and no such key is refused. -/
theorem press_function_run (mode : AngleMode) (evaluator : Evaluator) (library : FactorialLibrary)
    (operations : List Operation)
    (finished : ((start mode).run evaluator library operations).phase = .finished) :
    let s := (start mode).run evaluator library operations
    s.expression <+: displayText s.answer ∧
      (∀ f : SurfaceFunction, f ≠ .pow10 → s.press evaluator library f.name =
        ({ s with expression := s.expression ++ f.name ++ ['('], phase := .editing }, .done)) ∧
      s.press evaluator library SurfaceFunction.pow10.name =
        ({ s with expression := "pow10(".toList, result := [], phase := .editing }, .done) := by
  intro s
  have coherent : s.Coherent := coherent_run mode evaluator library operations
  exact ⟨coherent.front finished, fun f other => press_function evaluator library s other,
    press_pow10 evaluator library s finished⟩

/-- A result that a deletion has shortened is still gone on from. -/
theorem press_function_run_shortened :
    let operations : List Operation :=
      [.press ['7'], .press ['0'], .press ['='], .press "del".toList]
    let s := (start .degrees).run standardEvaluator .series operations
    s.phase = .finished ∧
      (s.press standardEvaluator .series SurfaceFunction.sqrt.name).1.expression =
        "7sqrt(".toList ∧
      (s.press standardEvaluator .series SurfaceFunction.pow10.name).1.expression =
        "pow10(".toList := by
  intro operations s
  have finished : s.phase = .finished := by decide +kernel
  have left : s.expression = ['7'] := by decide +kernel
  obtain ⟨-, goesOn, anew⟩ := press_function_run .degrees standardEvaluator .series operations
    finished
  refine ⟨finished, ?_, ?_⟩
  · rw [goesOn .sqrt (by decide), left]
    rfl
  · rw [anew]

/-- The power of ten pressed after a result does not go on from it, as the power of e does. -/
theorem press_pow10_replaces :
    let s := (start .radians).run standardEvaluator .series [.press ['5'], .press ['=']]
    s.phase = .finished ∧
      (s.press standardEvaluator .series "pow10".toList).1.expression ≠
        s.expression ++ "pow10(".toList ∧
      (s.press standardEvaluator .series "powE".toList).1.expression =
        s.expression ++ "powE(".toList := by
  decide +kernel

end Calculator.Session
