import Calculator.Proofs.Grammar.Steps
import Calculator.Proofs.Grammar.Unambiguous

/-!
# Sentences are read as they are derived

Where a part of a sentence is derived and can end, the rule of its category reads exactly that part,
and its outcome is the evaluation of the tree: the value, or the first fault from left to right, the
lack of a level included.
-/
namespace Calculator

open Rules

/-- Arguments, up to and with the parenthesis that closes them. -/
def untilClosing (step : Except Fault (List Binary64 × Cursor)) :
    Except Fault (List Binary64 × Cursor) := do
  let (values, c) ← step
  let c ← c.expect .closing
  .ok (values, c)

section

variable (registry : Registry) (limit : Nat)

/-- The rule of a category reads the tree between two places. Rules that go on from what stands to
their left are told its evaluation. -/
def Reads : Category → Cursor → Syntax → Cursor → Prop
  | .primary, c, t, c' => ∀ levels,
    primary registry (inside registry limit levels) c =
      (t.evaluate registry limit levels).map (·, c')
  | .unary, c, t, c' => ∀ levels,
    signed registry (inside registry limit levels) c =
      (t.evaluate registry limit levels).map (·, c')
  | .power, c, t, c' => ∀ levels,
    raised registry (inside registry limit levels) c =
      (t.evaluate registry limit levels).map (·, c')
  | .term, c, t, c' => ∀ levels,
    term registry (inside registry limit levels) c =
      (t.evaluate registry limit levels).map (·, c')
  | .expression, c, t, c' => ∀ levels,
    sum registry (inside registry limit levels) c =
      (t.evaluate registry limit levels).map (·, c')
  | .factors left, c, t, c' => ∀ levels bound, c.rest.length ≤ bound →
    (left.evaluate registry limit levels >>= fun value =>
        factors registry (inside registry limit levels) bound value c) =
      (t.evaluate registry limit levels).map (·, c')
  | .terms left, c, t, c' => ∀ levels bound, c.rest.length ≤ bound →
    (left.evaluate registry limit levels >>= fun value =>
        terms registry (inside registry limit levels) bound value c) =
      (t.evaluate registry limit levels).map (·, c')
  | .arguments name, c, t, c' => ∃ arguments, t = .call name arguments ∧ ∀ levels,
    argumentList registry (inside registry limit levels) c =
      (Syntax.evaluateAll registry limit arguments levels).map (·, c')
  | .moreArguments name given, c, t, c' => ∃ more, t = .call name (given ++ more) ∧
    ∀ levels bound, c.rest.length ≤ bound →
      untilClosing (moreArguments registry (inside registry limit levels) bound c) =
        (Syntax.evaluateAll registry limit more levels).map (·, c')

end

/-- Reading what nests inside takes one level. -/
theorem descend_reads {α β : Type} {limit levels : Nat} {read : Nat → Except Fault β}
    {evaluate : Nat → Except Fault α} {f : α → β}
    (h : ∀ fewer, read fewer = (evaluate fewer).map f) :
    Syntax.descend limit read levels = (Syntax.descend limit evaluate levels).map f := by
  cases levels with
  | zero => rfl
  | succ fewer => exact h fewer

theorem bind_ok_pair {α : Type} (step : Except Fault α) (c : Cursor) :
    (step >>= fun x => Except.ok (x, c)) = step.map (·, c) := by
  cases step <;> rfl

/-- The arguments behind one more argument, up to the closing parenthesis. -/
theorem cons_closed_arguments (step : Except Fault (List Binary64 × Cursor)) (value : Binary64) :
    (do
      let (values, c) ← step
      let c ← c.expect .closing
      .ok (value :: values, c)) =
    (untilClosing step).map fun result => (value :: result.1, result.2) := by
  cases step with
  | error fault => rfl
  | ok result =>
    obtain ⟨values, c⟩ := result
    simp only [untilClosing, ok_bind]
    cases c.expect .closing <;> rfl

/-- Where a part is derived and can end, its rule reads it. -/
theorem Derives.reads (registry : Registry) (limit : Nat) {category : Category} {c c' : Cursor}
    {t : Syntax} (h : Derives category c t c') (stop : category.EndsAt c') :
    Reads registry limit category c t c' := by
  induction h with
  | number next =>
    intro levels
    rw [primary_of_number registry _ next, Syntax.evaluate]
    rfl
  | @constant c name next alone =>
    intro levels
    rw [primary_of_name registry _ next, Syntax.evaluate, named, Syntax.readName]
    cases registry.function? name with
    | some function => simp [alone]
    | none => cases registry.constant? name <;> simp [alone]
  | @group c c' inner opening expression closing ih =>
    intro levels
    have nested := ih (Cursor.endsSum_of_closing closing)
    rw [primary_of_opening registry _ opening, inside_expression, Syntax.evaluate,
      descend_reads nested]
    cases Syntax.descend limit (inner.evaluate registry limit) levels with
    | error fault => rfl
    | ok value => simp only [map_success, ok_bind, Cursor.expect_of_operator? closing]
  | @call c c' name t next opening arguments ih =>
    obtain ⟨ts, rfl, nested⟩ := ih trivial
    intro levels
    rw [primary_of_name registry _ next, named, Syntax.evaluate]
    cases registry.function? name with
    | none => cases registry.constant? name <;> simp [opening]
    | some function =>
      simp only [opening, if_true, inside_arguments, descend_reads nested]
      cases Syntax.descend limit (Syntax.evaluateAll registry limit ts) levels with
      | error fault => rfl
      | ok values =>
        simp only [map_success, ok_bind, Syntax.applyAll]
        cases function.valueAt? values <;> rfl
  | noArguments closing =>
    refine ⟨[], rfl, fun levels => ?_⟩
    rw [argumentList, if_pos closing]
    rfl
  | @firstArgument c c₁ c' name first t expression more ih₁ ih₂ =>
    obtain ⟨ts, rfl, further⟩ := ih₂ trivial
    refine ⟨first :: ts, rfl, fun levels => ?_⟩
    have head := ih₁ more.endsSum levels
    have tail := further levels c₁.rest.length (Nat.le_refl _)
    rw [argumentList, if_neg (expression.operator?_ne_closing trivial), head, Syntax.evaluateAll]
    cases first.evaluate registry limit levels with
    | error fault => rfl
    | ok value =>
      simp only [map_success, ok_bind]
      rw [cons_closed_arguments, tail]
      cases Syntax.evaluateAll registry limit ts levels <;> rfl
  | @nextArgument c c₁ c' name given next t comma expression more ih₁ ih₂ =>
    obtain ⟨ts, rfl, further⟩ := ih₂ trivial
    refine ⟨next :: ts, by rw [List.append_assoc]; rfl, fun levels bound enough => ?_⟩
    have shorter := expression.length_le
    have passed := Cursor.length_advance (Cursor.next?_of_operator? comma)
    obtain ⟨fewer, rfl⟩ : ∃ fewer, bound = fewer + 1 := ⟨bound - 1, by omega⟩
    have head := ih₁ more.endsSum levels
    have tail := further levels fewer (by omega)
    rw [moreArguments_of_comma registry _ comma, head, untilClosing, Syntax.evaluateAll]
    cases next.evaluate registry limit levels with
    | error fault => rfl
    | ok value =>
      simp only [map_success, ok_bind, bind_bind]
      rw [cons_closed_arguments, tail]
      cases Syntax.evaluateAll registry limit ts levels <;> rfl
  | @lastArgument c name given closing =>
    refine ⟨[], by rw [List.append_nil], fun levels bound enough => ?_⟩
    have noComma : c.operator? ≠ some .comma := by
      rw [closing]
      decide
    rw [moreArguments_of_no_comma registry _ noComma, untilClosing]
    simp only [ok_bind, Cursor.expect_of_operator? closing]
    rfl
  | @signed c c' sign operand symbol unary ih =>
    intro levels
    rw [signed_of_sign registry _ symbol, inside_unary, Syntax.evaluate, descend_reads (ih trivial)]
    cases Syntax.descend limit (operand.evaluate registry limit) levels with
    | error fault => rfl
    | ok value => rfl
  | unsigned primary ih =>
    intro levels
    rw [signed_of_no_sign registry _ primary.operator?_ne_sign]
    exact ih trivial levels
  | @raised c c₁ c' base exponent unary symbol power ih₁ ih₂ =>
    intro levels
    rw [Rules.raised, ih₁ trivial levels, Syntax.evaluate]
    cases base.evaluate registry limit levels with
    | error fault => rfl
    | ok x =>
      simp only [map_success, ok_bind, if_pos symbol, inside_power, descend_reads (ih₂ stop)]
      cases Syntax.descend limit (exponent.evaluate registry limit) levels with
      | error fault => rfl
      | ok y => rfl
  | @base c c' t unary ih =>
    intro levels
    rw [Rules.raised, ih trivial levels]
    cases t.evaluate registry limit levels with
    | error fault => rfl
    | ok x => simp only [map_success, ok_bind, if_neg stop]
  | @term c c₁ c' first t power factors ih₁ ih₂ =>
    intro levels
    have head := ih₁ (factors.endsPower stop) levels
    have tail := ih₂ stop levels c₁.rest.length (Nat.le_refl _)
    rw [Rules.term, head, ← tail]
    cases first.evaluate registry limit levels with
    | error fault => rfl
    | ok x => rfl
  | @factor c c₁ c' left right t link operator written symbol power factors ih₁ ih₂ =>
    intro levels bound enough
    have head := ih₁ (factors.endsPower stop) levels
    have shorter := power.length_le
    have passed := Cursor.length_advance (Cursor.next?_of_operator? symbol)
    obtain ⟨fewer, rfl⟩ : ∃ fewer, bound = fewer + 1 := ⟨bound - 1, by omega⟩
    have tail := ih₂ stop levels fewer (by omega)
    rw [← tail, Syntax.evaluate]
    cases left.evaluate registry limit levels with
    | error fault => rfl
    | ok x =>
      simp only [ok_bind, factors_of_link registry _ written symbol, head]
      cases right.evaluate registry limit levels with
      | error fault => rfl
      | ok y => rfl
  | @implicitFactor c c₁ c' left right t start power factors ih₁ ih₂ =>
    intro levels bound enough
    have head := ih₁ (factors.endsPower stop) levels
    have shorter := power.length_le
    simp only [Category.least] at shorter
    obtain ⟨fewer, rfl⟩ : ∃ fewer, bound = fewer + 1 := ⟨bound - 1, by omega⟩
    have tail := ih₂ stop levels fewer (by omega)
    rw [← tail, Syntax.evaluate]
    cases left.evaluate registry limit levels with
    | error fault => rfl
    | ok x =>
      simp only [ok_bind, factors_of_startsAlone registry _ start, head]
      cases right.evaluate registry limit levels with
      | error fault => rfl
      | ok y => rfl
  | noFactor =>
    intro levels bound enough
    simp only [factors_of_neither registry _ stop.noOperator stop.noImplicit, bind_ok_pair]
  | @expression c c₁ c' first t term terms ih₁ ih₂ =>
    intro levels
    have head := ih₁ (terms.endsTerm stop) levels
    have tail := ih₂ stop levels c₁.rest.length (Nat.le_refl _)
    rw [Rules.sum, head, ← tail]
    cases first.evaluate registry limit levels with
    | error fault => rfl
    | ok x => rfl
  | @furtherTerm c c₁ c' sign left right t symbol term terms ih₁ ih₂ =>
    intro levels bound enough
    have head := ih₁ (terms.endsTerm stop) levels
    have shorter := term.length_le
    have passed := Cursor.length_advance (Cursor.next?_of_operator? symbol)
    obtain ⟨fewer, rfl⟩ : ∃ fewer, bound = fewer + 1 := ⟨bound - 1, by omega⟩
    have tail := ih₂ stop levels fewer (by omega)
    rw [← tail, Syntax.evaluate]
    cases left.evaluate registry limit levels with
    | error fault => rfl
    | ok x =>
      simp only [ok_bind, terms_of_sign registry _ symbol, head]
      cases right.evaluate registry limit levels with
      | error fault => rfl
      | ok y => rfl
  | noTerm =>
    intro levels bound enough
    simp only [terms_of_no_sign registry _ stop.noTerm, bind_ok_pair]

end Calculator
