import Calculator.Fault

/-!
# Results of reading

Reading either succeeds or meets a fault, and a step that follows another is taken only after a
success.
-/
namespace Calculator

variable {ε α β : Type}

@[simp] theorem ok_bind (x : α) (next : α → Except ε β) : (Except.ok x >>= next) = next x := rfl

@[simp] theorem error_bind (e : ε) (next : α → Except ε β) :
    ((Except.error e : Except ε α) >>= next) = .error e := rfl

@[simp] theorem map_success (f : α → β) (x : α) : (Except.ok x : Except ε α).map f = .ok (f x) := rfl

@[simp] theorem map_failure (f : α → β) (e : ε) : (Except.error e : Except ε α).map f = .error e :=
  rfl

theorem bind_bind {γ : Type} (step : Except ε α) (next : α → Except ε β) (last : β → Except ε γ) :
    ((step >>= next) >>= last) = (step >>= fun x => next x >>= last) := by
  cases step <;> rfl

theorem bind_success {step : Except ε α} {next : α → Except ε β} {value : β}
    (h : (step >>= next) = .ok value) : ∃ x, step = .ok x ∧ next x = .ok value := by
  cases step with
  | error e => cases h
  | ok x => exact ⟨x, rfl, h⟩

theorem bind_failure {step : Except ε α} {next : α → Except ε β} {fault : ε}
    (h : (step >>= next) = .error fault) :
    step = .error fault ∨ ∃ x, step = .ok x ∧ next x = .error fault := by
  cases step with
  | error e =>
    cases h
    exact .inl rfl
  | ok x => exact .inr ⟨x, rfl, h⟩

theorem ok_of_toOption {step : Except ε α} {value : α} (h : step.toOption = some value) :
    step = .ok value := by
  cases step with
  | error e => cases h
  | ok x => rw [Option.some.inj h]

theorem map_eq_ok {f : α → β} {step : Except ε α} {value : β} (h : step.map f = .ok value) :
    ∃ x, step = .ok x ∧ f x = value := by
  cases step with
  | error e => cases h
  | ok x =>
    cases h
    exact ⟨x, rfl, rfl⟩

end Calculator
