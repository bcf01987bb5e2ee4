import Calculator.Error

/-!
# Exceptions and their families

The class of an exception may belong to several families at once, so that which errors are handled,
and what they become, depends on the families asked for and on the order of the questions. The
failures of an evaluator keep just as much of an exception as the answers depend on.
-/
namespace Calculator

/-- The families of exceptions that are asked for. -/
inductive Family where
  | calculation | recursion | zeroDivision | arithmetic | value
  deriving DecidableEq, Repr

/-- An exception with the name of its class, its text and the families of its class; an error of the
calculation also is one of the known errors. -/
structure Thrown where
  name : List Char
  text : List Char
  families : List Family
  error? : Option CalculationError
  name_ne_nil : name ≠ []
  calculation_iff : .calculation ∈ families ↔ error?.isSome = true
  value_of_calculation : .calculation ∈ families → .value ∈ families
  arithmetic_of_zeroDivision : .zeroDivision ∈ families → .arithmetic ∈ families
  zeroDivision_iff : ∀ error, error? = some error →
    (.zeroDivision ∈ families ↔ error.kind = .divisionByZero)

namespace CalculationError

/-- The display is never empty. -/
theorem display_ne_nil (e : CalculationError) : e.display ≠ [] := by
  have caption : e.kind.caption ≠ [] := by cases e.kind <;> decide
  unfold display orElseText
  split
  · split
    · exact caption
    · assumption
  · exact caption

end CalculationError

namespace Thrown

/-- The families whose exceptions are handled. -/
def handledFamilies : List Family :=
  [.calculation, .recursion, .arithmetic, .value]

variable (t : Thrown)

/-- The class of the exception belongs to a family. -/
def IsA (family : Family) : Prop :=
  family ∈ t.families

instance (family : Family) : Decidable (t.IsA family) :=
  inferInstanceAs (Decidable (family ∈ t.families))

/-- The exception is of a family that is handled. -/
def IsHandled : Prop :=
  ∃ family ∈ handledFamilies, t.IsA family

instance : Decidable t.IsHandled :=
  inferInstanceAs (Decidable (∃ family ∈ handledFamilies, t.IsA family))

/-- The error that an exception becomes: its own, or one by the first family that fits. -/
def toError : CalculationError :=
  match t.error? with
  | some error => error
  | none =>
    if t.IsA .recursion then ⟨.tooLarge, "nesting exceeds the interpreter limit".toList⟩
    else if t.IsA .zeroDivision then ⟨.divisionByZero, t.text⟩
    else ⟨.other, orElseText t.text t.name⟩

/-- What an evaluator that throws the exception is said to fail with. -/
def failure : Failure :=
  match t.error? with
  | some error => .reported error
  | none =>
    if t.IsA .recursion then .recursionLimit t.text
    else if t.IsA .zeroDivision then .zeroDivision t.text
    else if t.IsHandled then .numeric t.name t.text
    else .foreign t.name t.text

theorem isHandled_of_error? {error : CalculationError} (h : t.error? = some error) : t.IsHandled :=
  ⟨.calculation, by decide, t.calculation_iff.2 (by rw [h]; rfl)⟩

theorem isHandled_of_zeroDivision (h : t.IsA .zeroDivision) : t.IsHandled :=
  ⟨.arithmetic, by decide, t.arithmetic_of_zeroDivision h⟩

/-- The failure is handled just like the exception. -/
theorem isHandled_failure : t.failure.isHandled = decide t.IsHandled := by
  unfold failure
  cases own : t.error? with
  | some error =>
    rw [decide_eq_true (t.isHandled_of_error? own)]
    rfl
  | none =>
    dsimp only
    split
    · rename_i recursion
      have handled : t.IsHandled := ⟨.recursion, by decide, recursion⟩
      rw [decide_eq_true handled]
      rfl
    · split
      · rename_i zero
        rw [decide_eq_true (t.isHandled_of_zeroDivision zero)]
        rfl
      · split
        · rename_i handled
          rw [decide_eq_true handled]
          rfl
        · rename_i foreign
          rw [decide_eq_false foreign]
          rfl

/-- The failure becomes the same error as the exception. -/
theorem toError_failure : t.failure.toError = t.toError := by
  unfold failure toError
  cases t.error? with
  | some error => rfl
  | none =>
    dsimp only
    split
    · rfl
    · split
      · rfl
      · split <;> rfl

/-- What each family of exceptions becomes. -/
structure BecomesError (e : CalculationError) : Prop where
  kept : ∀ own, t.error? = some own → e = own
  recursion : t.error? = none → t.IsA .recursion → e.kind = .tooLarge
  zeroDivision : ¬ t.IsA .recursion → t.IsA .zeroDivision → e.kind = .divisionByZero
  other : t.error? = none → ¬ t.IsA .recursion → ¬ t.IsA .zeroDivision →
    e.kind = .other ∧ e.display = orElseText t.text t.name

theorem orElseText_name_ne_nil : orElseText t.text t.name ≠ [] := by
  unfold orElseText
  split
  · exact t.name_ne_nil
  · assumption

theorem becomesError_toError : t.BecomesError t.toError where
  kept own h := by rw [toError, h]
  recursion missing recursion := by
    rw [toError, missing]
    dsimp only
    rw [if_pos recursion]
  zeroDivision noRecursion zero := by
    unfold toError
    cases own : t.error? with
    | some error => exact (t.zeroDivision_iff error own).1 zero
    | none =>
      dsimp only
      rw [if_neg noRecursion, if_pos zero]
  other missing noRecursion noZero := by
    have error : t.toError = ⟨.other, orElseText t.text t.name⟩ := by
      rw [toError, missing]
      dsimp only
      rw [if_neg noRecursion, if_neg noZero]
    rw [error]
    refine ⟨rfl, ?_⟩
    rw [CalculationError.display, if_pos rfl]
    exact if_neg t.orElseText_name_ne_nil

end Thrown

end Calculator
