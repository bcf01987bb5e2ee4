import Calculator.Proofs.Grammar.Syntax

/-!
# Trees within the levels

A tree whose depth fits the levels that can be spent is never refused for its depth: its evaluation
gives a value or meets another fault.
-/
namespace Calculator

/-- No fault of size is met. -/
def NeverTooLarge {α : Type} (step : Except Fault α) : Prop :=
  ∀ fault, step = .error fault → fault.kind ≠ .tooLarge

namespace NeverTooLarge

variable {α β : Type} {limit depth levels : Nat}

theorem ok (x : α) : NeverTooLarge (.ok x) :=
  fun _ met => by cases met

theorem error {fault : Fault} (other : fault.kind ≠ .tooLarge) :
    NeverTooLarge (.error fault : Except Fault α) :=
  fun _ met => by cases met; exact other

theorem bind {step : Except Fault α} {next : α → Except Fault β} (first : NeverTooLarge step)
    (further : ∀ x, NeverTooLarge (next x)) : NeverTooLarge (step >>= next) := by
  intro fault met
  rcases bind_failure met with met | ⟨x, -, met⟩
  · exact first fault met
  · exact further x fault met

theorem descend {inner : Nat → Except Fault α} (fits : depth + 1 ≤ levels)
    (h : ∀ fewer, depth ≤ fewer → NeverTooLarge (inner fewer)) :
    NeverTooLarge (Syntax.descend limit inner levels) := by
  obtain ⟨fewer, rfl⟩ : ∃ fewer, levels = fewer + 1 := ⟨levels - 1, by omega⟩
  exact h fewer (Nat.le_of_succ_le_succ fits)

end NeverTooLarge

namespace Syntax

theorem neverTooLarge_readName (registry : Registry) (name : List Char) :
    NeverTooLarge (readName registry name) := by
  unfold readName
  split
  · exact .error (by simp [Fault.kind])
  · split
    · exact .ok _
    · exact .error (by simp [Fault.kind])

theorem neverTooLarge_applyAll (name : List Char) (function : Function) (values : List Binary64) :
    NeverTooLarge (applyAll name function values) := by
  unfold applyAll
  split
  · exact .ok _
  · exact .error (by simp [Fault.kind])

theorem neverTooLarge_readLink (link : Link) (x y : Binary64) :
    NeverTooLarge (readLink link x y) := by
  cases link with
  | times | implicit => exact .ok _
  | divide | modulo =>
    simp only [readLink]
    split
    · exact .error (by simp [Fault.kind])
    · exact .ok _

mutual

/-- A tree that fits the levels is not refused for its depth. -/
theorem neverTooLarge_evaluate (registry : Registry) (limit : Nat) :
    ∀ (t : Syntax) {levels : Nat}, t.depth ≤ levels →
      NeverTooLarge (t.evaluate registry limit levels)
  | .number numeral, levels, fits => by
    rw [evaluate]
    exact .ok _
  | .constant name, levels, fits => by
    rw [evaluate]
    exact neverTooLarge_readName registry name
  | .group inner, levels, fits => by
    rw [evaluate]
    exact .descend fits fun _ => neverTooLarge_evaluate registry limit inner
  | .call name arguments, levels, fits => by
    rw [evaluate]
    split
    · exact (NeverTooLarge.descend fits fun _ =>
        neverTooLarge_evaluateAll registry limit arguments).bind
        fun values => neverTooLarge_applyAll name _ values
    · split <;> exact .error (by simp [Fault.kind])
  | .signed sign operand, levels, fits => by
    rw [evaluate]
    exact (NeverTooLarge.descend fits fun _ =>
      neverTooLarge_evaluate registry limit operand).bind fun _ => .ok _
  | .power base exponent, levels, fits => by
    rw [evaluate]
    obtain ⟨first, second⟩ := Nat.max_le.1 fits
    exact (neverTooLarge_evaluate registry limit base first).bind fun _ =>
      (NeverTooLarge.descend second fun _ =>
        neverTooLarge_evaluate registry limit exponent).bind fun _ => .ok _
  | .product link left right, levels, fits => by
    rw [evaluate]
    obtain ⟨first, second⟩ := Nat.max_le.1 fits
    exact (neverTooLarge_evaluate registry limit left first).bind fun x =>
      (neverTooLarge_evaluate registry limit right second).bind fun y =>
        neverTooLarge_readLink link x y
  | .sum sign left right, levels, fits => by
    rw [evaluate]
    obtain ⟨first, second⟩ := Nat.max_le.1 fits
    exact (neverTooLarge_evaluate registry limit left first).bind fun _ =>
      (neverTooLarge_evaluate registry limit right second).bind fun _ => .ok _

theorem neverTooLarge_evaluateAll (registry : Registry) (limit : Nat) :
    ∀ (ts : List Syntax) {levels : Nat}, depthAll ts ≤ levels →
      NeverTooLarge (evaluateAll registry limit ts levels)
  | [], levels, fits => by
    rw [evaluateAll]
    exact .ok _
  | first :: rest, levels, fits => by
    rw [evaluateAll]
    obtain ⟨head, tail⟩ := Nat.max_le.1 fits
    exact (neverTooLarge_evaluate registry limit first head).bind fun _ =>
      (neverTooLarge_evaluateAll registry limit rest tail).bind fun _ => .ok _

end

end Syntax

end Calculator
