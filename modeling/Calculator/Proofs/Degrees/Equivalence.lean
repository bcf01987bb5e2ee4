import Calculator.Proofs.Degrees.Canonical
import Calculator.Proofs.Degrees.Simulation

/-!
# Wrapping calls is converting angles

An expression in degrees has its calls of angles wrapped in conversions before it is evaluated. That
comes to the same as leaving the calls as they are in radians and evaluating them over primitives
whose angles are in degrees, whatever the expression, as long as it reaches for these primitives
through surface functions only.
-/
namespace Calculator

theorem isWord_of_isAngular {p : Primitive} (h : p.wrapper?.isSome = true) : IsWord p.name := by
  cases p with
  | sin | cos | tan | asin | acos | atan =>
    exact ⟨⟨_, _, rfl, by decide⟩, forall_mem_of_all (by decide)⟩
  | _ => cases h

/-- What an expression does not use, the text after replacing does not use. -/
theorem clean_substitute {expression : List Char} (answer : Binary64)
    (unused : ∀ p ∈ [Primitive.asin, .acos, .atan], usesName p.name expression = false)
    (tight : ∀ p ∈ [Primitive.sin, .cos, .tan], hasSpaceAfter p.name expression = false) :
    Clean none (substitute answer 0 none (trimBlanks expression)) where
  inverse p member := by
    have word : IsWord p.name := isWord_of_isAngular (by revert p; decide)
    exact word.standsIn_substitute_trimBlanks steady_endsName answer (unused p member)
  spaced p member := by
    have word : IsWord p.name := isWord_of_isAngular (by revert p; decide)
    exact word.standsIn_substitute_trimBlanks steady_isSpaced answer (tight p member)

/-- The canonical form in degrees over the standard primitives, and the one in radians over those
with angles in degrees. -/
theorem evaluateCanonicalWith_matches {D R : List Char} (h : ReadWrapped [] D R) :
    Matches (· = ·) (evaluateCanonicalWith .standard D) (evaluateCanonicalWith .ofDegrees R) := by
  unfold evaluateCanonicalWith Tokens.ofText
  cases h with
  | refused first second =>
    obtain ⟨fault, read, kind⟩ := first 0
    obtain ⟨fault', read', kind'⟩ := second 0
    rw [read, read']
    exact .fault (kind.trans kind'.symm)
  | read first second wrapped =>
    obtain ⟨tokens, read, rfl⟩ := first 0
    obtain ⟨tokens', read', rfl⟩ := second 0
    rw [read, read']
    exact Tokens.value_matches nestingLimit wrapped

/-- An expression in degrees has the value, or a fault of the kind, that its canonical form in radians
has over the primitives with angles in degrees, unless it is too large. The expression may be
malformed in any way. It must not use the primitives that give an angle by their own names, and
not have a blank between the name of a function of an angle and its argument. -/
theorem evaluate_degrees_eq (expression : List Char) (answer : Binary64)
    (unused : ∀ p ∈ [Primitive.asin, .acos, .atan], usesName p.name expression = false)
    (tight : ∀ p ∈ [Primitive.sin, .cos, .tan], hasSpaceAfter p.name expression = false)
    (small : ∀ fault, evaluate expression .degrees answer = .error fault →
      fault.kind ≠ .tooLarge) :
    (evaluate expression .degrees answer).mapError Fault.kind =
      (evaluateCanonicalWith .ofDegrees (canonical .radians answer expression)).mapError
        Fault.kind := by
  have clean := clean_substitute answer unused tight
  have read : ReadWrapped [] (canonical .degrees answer expression)
      (canonical .radians answer expression) := by
    unfold canonical
    rw [expandCalls_eq_expandOnward, expandCalls_eq_expandOnward]
    exact readWrapped_expandOnward [] rfl clean
  have short : ¬ lengthLimit < expression.length := by
    intro long
    rw [evaluate, evaluateWith, canonicalize, if_pos long] at small
    exact small _ rfl rfl
  have value : evaluate expression .degrees answer =
      evaluateCanonicalWith .standard (canonical .degrees answer expression) := by
    rw [evaluate, evaluateWith, canonicalize, if_neg short, ok_bind]
  have result := evaluateCanonicalWith_matches read
  rw [← value] at result
  generalize evaluate expression .degrees answer = step at result small
  generalize evaluateCanonicalWith .ofDegrees (canonical .radians answer expression) = step' at result
  cases result with
  | tooLarge kind other => exact absurd kind (small _ rfl)
  | fault kind => exact congrArg Except.error kind
  | value same => rw [same]

/-- Calls nest, one stands behind a number, and one takes a constant. -/
theorem evaluate_degrees_nested :
    (evaluate "2sin(arccos(1/2)-tan(0))+cos(60e)".toList .degrees .zero).mapError Fault.kind =
      (evaluateCanonicalWith .ofDegrees
        (canonical .radians .zero "2sin(arccos(1/2)-tan(0))+cos(60e)".toList)).mapError
          Fault.kind := by
  have read : (evaluate "2sin(arccos(1/2)-tan(0))+cos(60e)".toList .degrees .zero).isOk = true := by
    decide +kernel
  refine evaluate_degrees_eq _ _ (by decide +kernel) (by decide +kernel) fun fault refused => ?_
  rw [refused] at read
  cases read

end Calculator
