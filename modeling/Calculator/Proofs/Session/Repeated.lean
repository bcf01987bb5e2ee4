import Calculator.Proofs.Number.FewDigits
import Calculator.Proofs.Session.Redisplayed

/-!
# Results evaluated again and again

The last answer holds a result in full, but evaluating again reads its text, and the number that is
read is the next answer. It is the same number only if the text says everything about it. Reading the
text of the number that was read gives that number again, so only the first repetition can change a
session.
-/
namespace Calculator

namespace Binary64

/-- Digits that a magnitude is displayed with are never read as nothing. -/
theorem reread_ne_negativeZero (x : Binary64) : x.reread ≠ .finite .negative .zero := by
  intro same
  cases x with
  | nan => cases same
  | infinite s => cases same
  | finite s m =>
    rw [reread] at same
    split at same
    · cases same
    · rename_i nonzero
      rw [ofDecimal] at same
      split at same
      · rename_i m' read
        cases same
        exact Magnitude.reread_ne_zero nonzero read rfl
      · cases same

/-- A text that is displayed is read as a number of few digits. -/
theorem fewDigits_reread {x : Binary64} (number : x ≠ .nan) : x.reread.FewDigits := by
  cases x with
  | nan => exact absurd rfl number
  | infinite s => exact fewDigits_infinite s
  | finite s m =>
    rw [reread]
    split
    · exact fewDigits_zero
    · rename_i nonzero
      exact fewDigits_significant s nonzero

theorem reread_of_fewDigits {x : Binary64} (few : x.FewDigits) (signed : x ≠ .finite .negative .zero) :
    x.reread = x := by
  obtain ⟨s, d, digits, rfl⟩ := few
  rw [ofDecimal] at signed ⊢
  cases read : d.toMagnitude? with
  | none => rfl
  | some m =>
    simp only [read] at signed ⊢
    by_cases zero : m.quanta = 0
    · obtain rfl := Magnitude.eq_zero_of_quanta zero
      cases s with
      | positive => rfl
      | negative => exact absurd rfl signed
    · rw [reread, if_neg zero, ofDecimal, Magnitude.significant_read zero digits read]

/-- A number is what its displayed text is read as, if and only if it is not a number, or is the one
nearest to a decimal of at most fifteen digits and not negative zero. -/
theorem reread_eq_self_iff (x : Binary64) :
    x.reread = x ↔ x = .nan ∨ x.FewDigits ∧ x ≠ .finite .negative .zero := by
  constructor
  · intro same
    by_cases number : x = .nan
    · exact .inl number
    · have few := fewDigits_reread number
      have signed := x.reread_ne_negativeZero
      rw [same] at few signed
      exact .inr ⟨few, signed⟩
  · rintro (rfl | ⟨few, signed⟩)
    · rfl
    · exact reread_of_fewDigits few signed

/-- What was read from a displayed text is displayed with a text that is read as the same number. -/
@[simp] theorem reread_reread (x : Binary64) : x.reread.reread = x.reread := by
  by_cases number : x = .nan
  · rw [number]
    rfl
  · exact reread_of_fewDigits (fewDigits_reread number) x.reread_ne_negativeZero

end Binary64

namespace Session

@[simp] theorem answer_finishWith (value : Binary64) (s : Session) :
    (s.finishWith value).answer = value := rfl

/-- No action but an evaluation and a factorial gives a value, and each of these finishes with it. -/
theorem perform_result {evaluator : Evaluator} {library : FactorialLibrary} {action : Action}
    {s s' : Session} {value : Binary64}
    (h : s.perform evaluator library action = (s', .result (some (.ok value)))) :
    s' = s.finishWith value := by
  cases action with
  | evaluate =>
    cases evaluated : s.evaluate evaluator with
    | error failure =>
      rw [perform, evaluated] at h
      cases h
    | ok outcome =>
      obtain ⟨next, result⟩ := outcome
      rw [perform, evaluated] at h
      cases h
      rcases evaluate_cases evaluator evaluated with
        ⟨-, blank⟩ | ⟨x, same, finished⟩ | ⟨error, -, failed⟩
      · cases blank
      · cases finished
        exact same
      · cases failed
  | factorial =>
    cases taken : s.factorial library with
    | error failure =>
      rw [perform, taken] at h
      cases h
    | ok outcome =>
      obtain ⟨next, result⟩ := outcome
      rw [perform, taken] at h
      cases h
      rcases factorial_cases library taken with ⟨-, missing⟩ | ⟨x, same, finished⟩
      · cases missing
      · cases finished
        exact same
  | memoryAdd =>
    rw [perform] at h
    cases added : s.memoryAdd evaluator with
    | error failure =>
      rw [added] at h
      cases h
    | ok s =>
      rw [added] at h
      cases h
  | append | deleteLast | clear | toggleMode | memoryClear | memoryRecall => cases h

/-- Evaluations that each leave a session as it is leave it as it is together. -/
theorem run_replicate {evaluator : Evaluator} {library : FactorialLibrary} {operation : Operation}
    {s : Session} (still : (s.operate evaluator library operation).1 = s) (n : ℕ) :
    s.run evaluator library (List.replicate n operation) = s := by
  induction n with
  | zero => rfl
  | succ n ih =>
    rw [List.replicate_succ, run, List.foldl_cons, still]
    exact ih

/-- After every successful evaluation and after every factorial a session shows its last answer. Such a
session can be evaluated again. The next answer is the number that the shown text is read as. It is
the same as before if and only if it is not a number, or is the one nearest to a decimal of at most
fifteen digits and not negative zero. All further evaluations leave the session as it is then. -/
theorem evaluate_repeated (library : FactorialLibrary) :
    (∀ (evaluator : Evaluator) (action : Action) (s s' : Session) (value : Binary64),
      s.perform evaluator library action = (s', .result (some (.ok value))) →
        s'.answer = value ∧ s'.phase = .finished ∧ s'.expression = displayText s'.answer) ∧
    ∀ s : Session, s.expression = displayText s.answer →
      let again := s.finishWith s.answer.reread
      s.evaluate standardEvaluator = .ok (again, some (.ok s.answer.reread)) ∧
        (again.answer = s.answer ↔
          s.answer = .nan ∨ s.answer.FewDigits ∧ s.answer ≠ .finite .negative .zero) ∧
        ∀ n, again.run standardEvaluator library (List.replicate n (.act .evaluate)) = again := by
  constructor
  · intro evaluator action s s' value h
    rw [perform_result h]
    exact ⟨rfl, rfl, rfl⟩
  · intro s shown again
    refine ⟨evaluate_shown s shown, s.answer.reread_eq_self_iff, run_replicate ?_⟩
    have value := evaluate_shown again (x := s.answer.reread) rfl
    rw [Binary64.reread_reread] at value
    rw [operate, perform, value]
    rfl

/-- The sum of a tenth and two tenths is not the number nearest to three tenths, but evaluating it
again gives that one, once and for all. -/
theorem evaluate_repeated_tenths :
    let typed := (start .radians).append "0.1+0.2".toList
    let sum := Binary64.ofDecimal .positive ⟨1, -1⟩ + Binary64.ofDecimal .positive ⟨2, -1⟩
    let s := typed.finishWith sum
    let tenths := Binary64.ofDecimal .positive ⟨3, -1⟩
    typed.perform standardEvaluator .series .evaluate = (s, .result (some (.ok sum))) ∧
      s.expression = displayText s.answer ∧ s.answer ≠ tenths ∧
      ∀ n, ((s.finishWith tenths).run standardEvaluator .series
        (List.replicate n (.act .evaluate))).answer = tenths := by
  intro typed sum s tenths
  have visible : ¬ typed.isBlankExpression = true := by decide
  have value : standardEvaluator typed.expression typed.mode typed.answer = .ok sum := by
    decide +kernel
  have performed : typed.perform standardEvaluator .series .evaluate =
      (s, .result (some (.ok sum))) := by
    rw [perform, evaluate, if_neg visible, value]
  have read : s.answer.reread = tenths := by decide +kernel
  obtain ⟨results, repeated⟩ := evaluate_repeated .series
  obtain ⟨-, -, shown⟩ := results standardEvaluator .evaluate typed s sum performed
  obtain ⟨-, -, still⟩ := repeated s shown
  refine ⟨performed, shown, by decide +kernel, fun n => ?_⟩
  rw [← read, still n, answer_finishWith]

/-- A third loses its last digit when it is evaluated again, and nothing was edited. -/
theorem evaluate_repeated_third :
    let s := (start .radians).run standardEvaluator .series
      [.act (.append "1/3".toList), .act .evaluate]
    let again := s.run standardEvaluator .series [.act .evaluate]
    s.phase = .finished ∧ s.expression = displayText s.answer ∧ again.phase = .finished ∧
      again.expression = s.expression ∧ again.answer ≠ s.answer := by
  decide +kernel

end Session

end Calculator
