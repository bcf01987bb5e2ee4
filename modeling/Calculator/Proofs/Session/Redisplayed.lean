import Calculator.Proofs.Grouping.LastAnswer
import Calculator.Proofs.Number.Length
import Calculator.Proofs.Number.Redisplay
import Calculator.Proofs.Number.Trimmed
import Calculator.Proofs.Session.Coherence

/-!
# Displayed results evaluated again

The text of a result is an expression that has a value with the same text, although the value may be
another one, because a result has more digits than are displayed. Only the greatest numbers are
displayed with digits beyond them, which are read as an infinity.
-/
namespace Calculator

/-! ## The value of a displayed text -/

/-- The number that the text of a displayed number is read as. -/
def Binary64.reread (x : Binary64) : Binary64 :=
  match x with
  | .nan => .nan
  | .infinite s => .infinite s
  | .finite s m => if m.quanta = 0 then .zero else .ofDecimal s (m.significant 15)

theorem displayText_finite {s : Sign} {m : Magnitude} (h : m.quanta ≠ 0) :
    displayText (.finite s m) =
      NumberFormat.signed s (NumberFormat.display.decimalText (m.significant 15)) := by
  have digits : NumberFormat.display.digitsOf m = m.significant 15 := if_neg h
  rw [displayText, NumberFormat.text, digits]
  exact if_neg fun zero => h zero.1

theorem displayText_zero {s : Sign} {m : Magnitude} (h : m.quanta = 0) :
    displayText (.finite s m) = ['0'] := by
  have digits : NumberFormat.display.digitsOf m = ⟨0, 0⟩ := if_pos h
  rw [displayText, NumberFormat.text, digits]
  exact if_pos ⟨h, Bool.false_ne_true⟩

/-- A displayed decimal denotes the number that it is read as. -/
theorem denotes_decimalText (s : Sign) (d : Decimal) :
    ∃ lexemes, Denotes (NumberFormat.signed s (NumberFormat.display.decimalText d)) lexemes 1
      (.ofDecimal s d) := by
  obtain ⟨n, text, same⟩ := NumberFormat.exists_numeral .display rfl d
  have number := denotes_signed_numeral s n
  rw [text, Binary64.ofDecimal, Decimal.toMagnitude?_eq_of_sameValue same] at number
  exact ⟨_, number⟩

theorem denotes_displayText (x : Binary64) : ∃ lexemes, Denotes (displayText x) lexemes 1 x.reread := by
  cases x with
  | nan => exact ⟨_, denotes_nan⟩
  | infinite s => exact ⟨_, denotes_infinity s⟩
  | finite s m =>
    by_cases zero : m.quanta = 0
    · have number := denotes_decimalText .positive ⟨0, 0⟩
      rw [displayText_zero zero, Binary64.reread, if_pos zero]
      exact number
    · rw [displayText_finite zero, Binary64.reread, if_neg zero]
      exact denotes_decimalText s _

theorem evaluate_displayText_eq (x : Binary64) (mode : AngleMode) (answer : Binary64) :
    evaluate (displayText x) mode answer = .ok x.reread := by
  obtain ⟨lexemes, denotes⟩ := denotes_displayText x
  have short : ¬ lengthLimit < (displayText x).length := by
    have length : (displayText x).length ≤ 36 := NumberFormat.length_display x
    unfold lengthLimit
    omega
  rw [evaluate, evaluateWith, canonicalize, if_neg short, ok_bind,
    (block_displayText x).canonical_eq]
  exact denotes.evaluateCanonical_eq (by decide)

/-! ## Its text -/

/-- The text of the greatest numbers, whose digits are beyond them. -/
def greatestText : List Char := "1.79769313486232E+308".toList

/-- What is displayed when a displayed text is evaluated: the same text, and an infinity only for the
text of the greatest numbers. -/
def redisplayed (text : List Char) : List Char :=
  if text = greatestText then infinityName
  else if text = '-' :: greatestText then '-' :: infinityName
  else text

theorem redisplayed_signed (s : Sign) {text : List Char} (h : text.head? ≠ some '-') :
    redisplayed (NumberFormat.signed s text) =
      NumberFormat.signed s (if text = greatestText then infinityName else text) := by
  cases s with
  | positive =>
    have unsigned : text ≠ '-' :: greatestText := by
      rintro rfl
      exact h rfl
    simp [redisplayed, NumberFormat.signed, unsigned]
  | negative =>
    have signed : '-' :: text ≠ greatestText := by
      intro same
      cases same
    simp only [redisplayed, NumberFormat.signed, if_neg signed, List.cons.injEq, true_and]
    split <;> rfl

theorem head?_decimalText (d : Decimal) :
    (NumberFormat.display.decimalText d).head? ≠ some '-' := by
  obtain ⟨n, text, -⟩ := NumberFormat.exists_numeral .display rfl d
  rw [← text]
  exact n.head?_text_ne (by decide) (by decide)

/-- The digits of the greatest numbers are read as no magnitude. -/
theorem decimalText_eq_greatestText_iff (d : Decimal) :
    NumberFormat.display.decimalText d = greatestText ↔ d.SameValue ⟨179769313486232, 294⟩ := by
  have greatest : NumberFormat.display.decimalText ⟨179769313486232, 294⟩ = greatestText := by
    decide +kernel
  rw [← greatest]
  exact ⟨NumberFormat.sameValue_of_decimalText_eq rfl, NumberFormat.decimalText_eq_of_sameValue _⟩

theorem displayText_reread (x : Binary64) : displayText x.reread = redisplayed (displayText x) := by
  cases x with
  | nan => decide
  | infinite s => cases s <;> decide
  | finite s m =>
    by_cases zero : m.quanta = 0
    · rw [displayText_zero zero, Binary64.reread, if_pos zero]
      decide
    · rw [displayText_finite zero, Binary64.reread, if_neg zero,
        redisplayed_signed s (head?_decimalText _), Binary64.ofDecimal]
      cases read : (m.significant 15).toMagnitude? with
      | none =>
        have greatest := Magnitude.significant_of_unread zero read
        rw [if_pos ((decimalText_eq_greatestText_iff _).2 (by rw [greatest]; exact .refl _))]
        rfl
      | some m' =>
        obtain ⟨zero', same⟩ := Magnitude.significant_redisplayed zero read
        have other : NumberFormat.display.decimalText (m.significant 15) ≠ greatestText := by
          intro text
          have value := (decimalText_eq_greatestText_iff _).1 text
          have unread : Decimal.toMagnitude? ⟨179769313486232, 294⟩ = none := by decide +kernel
          rw [Decimal.toMagnitude?_eq_of_sameValue value, unread] at read
          cases read
        rw [if_neg other, displayText_finite zero',
          NumberFormat.decimalText_eq_of_sameValue _ same]

/-! ## Sessions -/

namespace Session

/-- The key that evaluates the expression. -/
def evaluateKey : List Char := "=".toList

theorem evaluate_shown (s : Session) {x : Binary64} (shown : s.expression = displayText x) :
    s.evaluate standardEvaluator = .ok (s.finishWith x.reread, some (.ok x.reread)) := by
  have visible : ¬ s.isBlankExpression = true := by
    obtain ⟨c, rest, same, visible⟩ := (block_displayText x).start
    simp [isBlankExpression, shown, same, visible]
  have value : standardEvaluator s.expression s.mode s.answer = .ok x.reread := by
    rw [standardEvaluator, shown, evaluate_displayText_eq]
    rfl
  rw [evaluate, if_neg visible, value]

theorem press_evaluateKey_shown (library : FactorialLibrary) (s : Session) {x : Binary64}
    (shown : s.expression = displayText x) :
    (s.press standardEvaluator library evaluateKey).1 = s.finishWith x.reread := by
  have action : Action.ofToken? evaluateKey = some .evaluate := by decide
  rw [press_eq_perform standardEvaluator library action, perform, evaluate_shown s shown]

theorem memoryRecall_empty (s : Session) (empty : s.expression = []) :
    s.memoryRecall.expression = displayText s.memory := by
  rw [memoryRecall, append]
  split <;> simp [empty]

end Session

/-- The text of a displayed number is evaluated successfully, to one number in every angle mode and
with every last answer, and the text of that number is the same text, except that an infinity is
displayed for the text of the greatest numbers. So evaluating an unedited result, or the memory
recalled into an empty expression, keeps the text that is shown, with the same exception. -/
theorem evaluate_displayText (x : Binary64) :
    (∃ again, displayText again = redisplayed (displayText x) ∧
      ∀ mode answer, evaluate (displayText x) mode answer = .ok again) ∧
    (∀ (library : FactorialLibrary) (s : Session),
      let result := s.finishWith x
      let again := (result.press standardEvaluator library Session.evaluateKey).1
      again.expression = redisplayed result.expression ∧
        again.result = redisplayed result.result) ∧
    ∀ (library : FactorialLibrary) (s : Session),
      let recalled := (({ s with expression := [], memory := x } : Session).press
        standardEvaluator library Session.recallKey).1
      let again := (recalled.press standardEvaluator library Session.evaluateKey).1
      recalled.expression = displayText x ∧ again.expression = redisplayed recalled.expression ∧
        again.result = redisplayed recalled.expression := by
  refine ⟨⟨x.reread, displayText_reread x, evaluate_displayText_eq x⟩, fun library s => ?_,
    fun library s => ?_⟩
  · intro result again
    have same : again = result.finishWith x.reread := Session.press_evaluateKey_shown library _ rfl
    rw [same]
    exact ⟨displayText_reread x, displayText_reread x⟩
  · intro recalled again
    have pressed : recalled = _ := Session.press_recallKey standardEvaluator library _
    have shown : recalled.expression = displayText x := by
      rw [pressed, Session.memoryRecall_empty _ rfl]
    have same : again = recalled.finishWith x.reread := Session.press_evaluateKey_shown library _ shown
    rw [same, shown]
    exact ⟨rfl, displayText_reread x, displayText_reread x⟩

/-- The greatest number is displayed with digits beyond it, so its text is evaluated to infinity and
another text is displayed. -/
theorem evaluate_greatestText :
    displayText (.finite .positive .greatest) = greatestText ∧
      evaluate greatestText .degrees .zero = .ok (.infinite .positive) ∧
      displayText (.infinite .positive) ≠ greatestText := by
  have shown : displayText (.finite .positive .greatest) = greatestText := by decide +kernel
  have value : Binary64.reread (.finite .positive .greatest) = .infinite .positive := by
    decide +kernel
  refine ⟨shown, ?_, by decide⟩
  rw [← shown, evaluate_displayText_eq, value]

end Calculator
