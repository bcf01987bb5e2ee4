import Calculator.Proofs.Number.Written
import Calculator.Proofs.Session.Coherence

/-!
# The memory recalled after a result

After a result the recalled text starts a new expression if it has a digit in it. The text of every
finite number has one, in positional as in scientific notation, but the name of infinity has none, so
an infinite memory is joined to the result.
-/
namespace Calculator

/-- A numeral has a digit, before its point or after it. -/
theorem Numeral.exists_digit (n : Numeral) : ∃ d : Digit, d.char ∈ n.text := by
  obtain ⟨d, found⟩ := List.exists_mem_of_ne_nil _ n.digits_ne_nil
  refine ⟨d, ?_⟩
  rcases List.mem_append.1 found with whole | fraction
  · have shown : d.char ∈ Digit.text n.whole := List.mem_map_of_mem whole
    simp [Numeral.text, shown]
  · cases h : n.fraction with
    | none =>
      rw [h] at fraction
      cases fraction
    | some ds =>
      rw [h, Option.getD_some] at fraction
      have shown : d.char ∈ Digit.text ds := List.mem_map_of_mem fraction
      simp [Numeral.text, Numeral.fractionText, h, shown]

namespace Session

theorem startsAnew_of_digit {d : Digit} {text : List Char} (h : d.char ∈ text) :
    startsAnew text = true := by
  have any : text.any (fun c => (digitValue? c).isSome) = true :=
    List.any_eq_true.2 ⟨d.char, h, by rw [d.isDigit]; rfl⟩
  rw [startsAnew, any, Bool.true_or]

/-- A decimal is written with a digit, whatever its sign. -/
theorem startsAnew_signed (sign : Sign) (d : Decimal) :
    startsAnew (NumberFormat.signed sign (NumberFormat.display.decimalText d)) = true := by
  obtain ⟨n, text, -⟩ := NumberFormat.exists_numeral .display rfl d
  obtain ⟨digit, shown⟩ := n.exists_digit
  rw [text] at shown
  refine startsAnew_of_digit (d := digit) ?_
  cases sign with
  | positive => exact shown
  | negative => exact List.mem_cons_of_mem _ shown

theorem startsAnew_displayText_finite (sign : Sign) (m : Magnitude) :
    startsAnew (displayText (.finite sign m)) = true := by
  simp only [displayText, NumberFormat.text]
  split
  · exact startsAnew_signed .positive _
  · exact startsAnew_signed sign _

theorem startsAnew_displayText_infinite (sign : Sign) :
    startsAnew (displayText (.infinite sign)) = false := by
  cases sign <;> decide

theorem append_startsAnew {s : Session} {text : List Char} (finished : s.phase = .finished)
    (anew : startsAnew text = true) :
    s.append text = { s with expression := text, result := [], phase := .editing } := by
  rw [append, if_pos ⟨finished, anew⟩]
  rfl

theorem append_goesOn {s : Session} {text : List Char} (goesOn : startsAnew text = false) :
    s.append text = { s with expression := s.expression ++ text, phase := .editing } := by
  rw [append, if_neg fun h => Bool.eq_false_iff.1 goesOn h.2]

theorem memoryRecall_finite {s : Session} (finished : s.phase = .finished)
    (finite : s.memory.isFinite = true) : s.memoryRecall =
      { s with expression := displayText s.memory, result := [], phase := .editing } := by
  cases memory : s.memory with
  | nan =>
    rw [memory] at finite
    cases finite
  | infinite sign =>
    rw [memory] at finite
    cases finite
  | finite sign m =>
    have anew : startsAnew (displayText s.memory) = true := by
      rw [memory]
      exact startsAnew_displayText_finite sign m
    rw [← memory]
    exact append_startsAnew finished anew

theorem memoryRecall_infinite {s : Session} {sign : Sign} (infinite : s.memory = .infinite sign) :
    s.memoryRecall =
      { s with expression := s.expression ++ displayText s.memory, phase := .editing } := by
  have goesOn : startsAnew (displayText s.memory) = false := by
    rw [infinite]
    exact startsAnew_displayText_infinite sign
  exact append_goesOn goesOn

/-- In every finished session that operations lead to, recalling the memory goes back to editing, and
the text of the memory is the whole expression exactly if the memory is finite or there was nothing
to join it to. A finite memory also clears the shown result, and nothing else changes. -/
theorem memoryRecall_run (mode : AngleMode) (evaluator : Evaluator) (library : FactorialLibrary)
    (operations : List Operation)
    (finished : ((start mode).run evaluator library operations).phase = .finished) :
    let s := (start mode).run evaluator library operations
    s.memoryRecall.phase = .editing ∧
      (s.memoryRecall.expression = displayText s.memory ↔
        s.memory.isFinite = true ∨ s.expression = []) ∧
      (s.memory.isFinite = true → s.memoryRecall =
        { s with expression := displayText s.memory, result := [], phase := .editing }) := by
  intro s
  refine ⟨phase_append _ _, ?_, memoryRecall_finite finished⟩
  cases memory : s.memory with
  | nan =>
    have coherent : s.Coherent := (coherent_start mode).run evaluator library operations
    exact absurd memory coherent.memory
  | finite sign m =>
    have finite : s.memory.isFinite = true := by
      rw [memory]
      rfl
    rw [memoryRecall_finite finished finite, memory]
    exact iff_of_true rfl (.inl rfl)
  | infinite sign =>
    rw [memoryRecall_infinite memory, memory]
    constructor
    · intro whole
      exact .inr (List.append_left_eq_self.1 whole)
    · rintro (finite | empty)
      · cases finite
      · rw [empty, List.nil_append]

/-- A negative memory replaces a result, although an operator would go on from it. -/
theorem memoryRecall_run_negative :
    let operations : List Operation :=
      [.act (.append "-5".toList), .act .memoryAdd, .press ['7'], .press ['=']]
    let s := (start .degrees).run standardEvaluator .series operations
    s.phase = .finished ∧ s.expression = ['7'] ∧ s.memoryRecall.expression = "-5".toList := by
  intro operations s
  have finished : s.phase = .finished := by decide +kernel
  have finite : s.memory.isFinite = true := by decide +kernel
  have shown : displayText s.memory = "-5".toList := by decide +kernel
  obtain ⟨-, whole, -⟩ := memoryRecall_run .degrees standardEvaluator .series operations finished
  refine ⟨finished, by decide +kernel, ?_⟩
  rw [whole.2 (.inl finite), shown]

/-- An infinite memory is joined to the result. -/
theorem memoryRecall_infinite_joined :
    let s := (start .degrees).run standardEvaluator .series
      [.act (.append "1E400".toList), .act .memoryAdd, .press ['5'], .press ['=']]
    s.phase = .finished ∧ displayText s.memory = "Infinity".toList ∧
      s.memoryRecall.expression = "5Infinity".toList := by
  decide +kernel

end Session

end Calculator
