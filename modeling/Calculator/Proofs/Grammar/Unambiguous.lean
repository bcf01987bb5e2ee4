import Calculator.Proofs.Grammar.Derivation

/-!
# Derivations are unique

A part of a sentence can end where nothing that follows could continue it: a power before anything
but a power sign, a term also not before a factor, an expression also not before a term. Between two
such ends there is one tree for each category, and it ends at one place.
-/
namespace Calculator

namespace Cursor

/-- No exponent follows. -/
def EndsPower (c : Cursor) : Prop :=
  c.operator? ≠ some .power

/-- Neither an exponent nor a factor follows. -/
structure EndsTerm (c : Cursor) : Prop where
  endsPower : c.EndsPower
  noOperator : ∀ link : Link, ∀ operator, link.symbol? = some operator →
    c.operator? ≠ some operator
  noImplicit : ¬ c.StartsAlone

/-- Neither an exponent nor a factor nor a term follows. -/
structure EndsSum (c : Cursor) : Prop extends EndsTerm c where
  noTerm : ∀ sign : Sign, c.operator? ≠ some sign.symbol

/-- A factor by itself starts with no operator but a parenthesis. -/
theorem StartsAlone.operator? {c : Cursor} (h : c.StartsAlone) {operator : Operator}
    (found : c.operator? = some operator) : operator = .opening := by
  rcases h with h | h | ⟨h, -⟩
  · rw [operator?_of_next?_name h] at found
    cases found
  · rw [h] at found
    cases found
    rfl
  · rw [operator?_of_next?_number h] at found
    cases found

theorem endsPower_of_startsAlone {c : Cursor} (h : c.StartsAlone) : c.EndsPower := by
  intro found
  cases h.operator? found

theorem endsPower_of_link {c : Cursor} {link : Link} {operator : Operator}
    (written : link.symbol? = some operator) (h : c.operator? = some operator) : c.EndsPower := by
  intro found
  rw [h] at found
  cases found
  cases link <;> cases written

theorem endsTerm_of_sign {c : Cursor} {sign : Sign} (h : c.operator? = some sign.symbol) :
    c.EndsTerm where
  endsPower found := by
    rw [h] at found
    cases sign <;> cases found
  noOperator link operator written found := by
    rw [h] at found
    cases found
    cases sign <;> cases link <;> cases written
  noImplicit start := by
    have opening := start.operator? h
    cases sign <;> cases opening

/-- An expression ends before a token that neither joins operands nor starts one. -/
theorem endsSum_of_operator {c : Cursor} {operator : Operator} (h : c.operator? = some operator)
    (stops : operator = .closing ∨ operator = .comma) : c.EndsSum where
  endsPower found := by
    rw [h] at found
    cases found
    simp at stops
  noOperator link operator written found := by
    rw [h] at found
    cases found
    cases link <;> cases written <;> simp at stops
  noImplicit start := by
    cases start.operator? h
    simp at stops
  noTerm sign found := by
    rw [h] at found
    cases found
    cases sign <;> simp [Sign.symbol] at stops

theorem endsSum_of_closing {c : Cursor} (h : c.operator? = some .closing) : c.EndsSum :=
  endsSum_of_operator h (.inl rfl)

theorem endsSum_of_comma {c : Cursor} (h : c.operator? = some .comma) : c.EndsSum :=
  endsSum_of_operator h (.inr rfl)

theorem endsSum_of_atEnd {c : Cursor} (h : c.AtEnd) : c.EndsSum where
  endsPower found := by
    rw [operator?_of_next?_none h] at found
    cases found
  noOperator link operator written found := by
    rw [operator?_of_next?_none h] at found
    cases found
  noImplicit start := by
    rcases start with found | found | ⟨found, -⟩
    · rw [h] at found
      cases found
    · rw [operator?_of_next?_none h] at found
      cases found
    · rw [h] at found
      cases found
  noTerm sign found := by
    rw [operator?_of_next?_none h] at found
    cases found

end Cursor

/-- A part of this category can end here. -/
def Category.EndsAt : Category → Cursor → Prop
  | .power, c => c.EndsPower
  | .term, c | .factors _, c => c.EndsTerm
  | .expression, c | .terms _, c => c.EndsSum
  | .primary, _ | .unary, _ | .arguments _, _ | .moreArguments _ _, _ => True

/-- Behind a power there is a further factor or the end of the term. -/
theorem Derives.endsPower {c c' : Cursor} {left t : Syntax} (h : Derives (.factors left) c t c')
    (stop : c'.EndsTerm) : c.EndsPower := by
  cases h with
  | factor written symbol power factors => exact Cursor.endsPower_of_link written symbol
  | implicitFactor start power factors => exact Cursor.endsPower_of_startsAlone start
  | noFactor => exact stop.endsPower

/-- Behind a term there is a further term or the end of the sum. -/
theorem Derives.endsTerm {c c' : Cursor} {left t : Syntax} (h : Derives (.terms left) c t c')
    (stop : c'.EndsSum) : c.EndsTerm := by
  cases h with
  | furtherTerm symbol term terms => exact Cursor.endsTerm_of_sign symbol
  | noTerm => exact stop.toEndsTerm

/-- Behind an argument there is a comma or the closing parenthesis. -/
theorem Derives.endsSum {c c' : Cursor} {name : List Char} {given : List Syntax} {t : Syntax}
    (h : Derives (.moreArguments name given) c t c') : c.EndsSum := by
  cases h with
  | nextArgument comma expression more => exact Cursor.endsSum_of_comma comma
  | lastArgument closing => exact Cursor.endsSum_of_closing closing

theorem Sign.symbol_injective {s t : Sign} (h : s.symbol = t.symbol) : s = t := by
  cases s <;> cases t <;> first | rfl | cases h

theorem Link.symbol?_injective {k l : Link} {operator : Operator} (hk : k.symbol? = some operator)
    (hl : l.symbol? = some operator) : k = l := by
  rw [← hl] at hk
  cases k <;> cases l <;> first | rfl | cases hk

theorem not_startsAlone_of_link {c : Cursor} {link : Link} {operator : Operator}
    (written : link.symbol? = some operator) (symbol : c.operator? = some operator) :
    ¬ c.StartsAlone := by
  intro start
  cases start.operator? symbol
  cases link <;> cases written

/-- What starts a primary is no sign. -/
theorem Derives.operator?_ne_sign {c c' : Cursor} {t : Syntax} (h : Derives .primary c t c')
    (sign : Sign) : c.operator? ≠ some sign.symbol := by
  intro found
  cases h with
  | number next =>
    rw [Cursor.operator?_of_next?_number next] at found
    cases found
  | constant next alone =>
    rw [Cursor.operator?_of_next?_name next] at found
    cases found
  | group opening expression closing =>
    rw [opening] at found
    cases sign <;> cases found
  | call next opening arguments =>
    rw [Cursor.operator?_of_next?_name next] at found
    cases found

/-- The categories of operands, which are never empty. -/
def Category.IsOperand : Category → Prop
  | .primary | .unary | .power | .term | .expression => True
  | _ => False

/-- No operand starts with a closing parenthesis. -/
theorem Derives.operator?_ne_closing {category : Category} {c c' : Cursor} {t : Syntax}
    (h : Derives category c t c') (operand : category.IsOperand) :
    c.operator? ≠ some .closing := by
  induction h with
  | number next =>
    rw [Cursor.operator?_of_next?_number next]
    exact Option.some_ne_none _ ∘ Eq.symm
  | constant next | call next =>
    rw [Cursor.operator?_of_next?_name next]
    exact Option.some_ne_none _ ∘ Eq.symm
  | group opening =>
    rw [opening]
    decide
  | @signed _ _ sign _ symbol =>
    rw [symbol]
    cases sign <;> decide
  | unsigned _ ih | base _ ih => exact ih trivial
  | raised _ _ _ ih | term _ _ ih | expression _ _ ih => exact ih trivial
  | _ => cases operand

/-- Two derivations of a category from one place have one tree and one end, if both can end where
they do. -/
theorem Derives.unique {category : Category} {c c₁ c₂ : Cursor} {t₁ t₂ : Syntax}
    (h₁ : Derives category c t₁ c₁) (h₂ : Derives category c t₂ c₂) (e₁ : category.EndsAt c₁)
    (e₂ : category.EndsAt c₂) : t₁ = t₂ ∧ c₁ = c₂ := by
  induction h₁ generalizing t₂ c₂ with
  | number next =>
    cases h₂ with
    | number next' =>
      rw [next] at next'
      cases next'
      exact ⟨rfl, rfl⟩
    | constant next' => rw [next] at next'; cases next'
    | call next' => rw [next] at next'; cases next'
    | group opening => rw [Cursor.operator?_of_next?_number next] at opening; cases opening
  | constant next alone =>
    cases h₂ with
    | constant next' =>
      rw [next] at next'
      cases next'
      exact ⟨rfl, rfl⟩
    | number next' => rw [next] at next'; cases next'
    | call next' opening => exact absurd opening alone
    | group opening => rw [Cursor.operator?_of_next?_name next] at opening; cases opening
  | group opening expression closing ih =>
    cases h₂ with
    | group opening' expression' closing' =>
      obtain ⟨rfl, rfl⟩ := ih expression' (Cursor.endsSum_of_closing closing)
        (Cursor.endsSum_of_closing closing')
      exact ⟨rfl, rfl⟩
    | number next => rw [Cursor.operator?_of_next?_number next] at opening; cases opening
    | constant next => rw [Cursor.operator?_of_next?_name next] at opening; cases opening
    | call next => rw [Cursor.operator?_of_next?_name next] at opening; cases opening
  | call next opening arguments ih =>
    cases h₂ with
    | call next' opening' arguments' =>
      rw [next] at next'
      cases next'
      exact ih arguments' trivial trivial
    | number next' => rw [next] at next'; cases next'
    | constant next' alone => exact absurd opening alone
    | group opening' => rw [Cursor.operator?_of_next?_name next] at opening'; cases opening'
  | noArguments closing =>
    cases h₂ with
    | noArguments closing' => exact ⟨rfl, rfl⟩
    | firstArgument expression more => exact absurd closing (expression.operator?_ne_closing trivial)
  | firstArgument expression more ih₁ ih₂ =>
    cases h₂ with
    | noArguments closing => exact absurd closing (expression.operator?_ne_closing trivial)
    | firstArgument expression' more' =>
      obtain ⟨rfl, rfl⟩ := ih₁ expression' more.endsSum more'.endsSum
      exact ih₂ more' trivial trivial
  | nextArgument comma expression more ih₁ ih₂ =>
    cases h₂ with
    | nextArgument comma' expression' more' =>
      obtain ⟨rfl, rfl⟩ := ih₁ expression' more.endsSum more'.endsSum
      exact ih₂ more' trivial trivial
    | lastArgument closing => rw [comma] at closing; cases closing
  | lastArgument closing =>
    cases h₂ with
    | lastArgument closing' => exact ⟨rfl, rfl⟩
    | nextArgument comma => rw [comma] at closing; cases closing
  | signed symbol unary ih =>
    cases h₂ with
    | signed symbol' unary' =>
      rw [symbol] at symbol'
      cases Sign.symbol_injective (Option.some.inj symbol')
      obtain ⟨rfl, rfl⟩ := ih unary' trivial trivial
      exact ⟨rfl, rfl⟩
    | unsigned primary => exact absurd symbol (primary.operator?_ne_sign _)
  | unsigned primary ih =>
    cases h₂ with
    | signed symbol unary => exact absurd symbol (primary.operator?_ne_sign _)
    | unsigned primary' => exact ih primary' trivial trivial
  | raised unary symbol power ih₁ ih₂ =>
    cases h₂ with
    | raised unary' symbol' power' =>
      obtain ⟨rfl, rfl⟩ := ih₁ unary' trivial trivial
      obtain ⟨rfl, rfl⟩ := ih₂ power' e₁ e₂
      exact ⟨rfl, rfl⟩
    | base unary' =>
      obtain ⟨rfl, rfl⟩ := ih₁ unary' trivial trivial
      exact absurd symbol e₂
  | base unary ih =>
    cases h₂ with
    | raised unary' symbol' power' =>
      obtain ⟨rfl, rfl⟩ := ih unary' trivial trivial
      exact absurd symbol' e₁
    | base unary' => exact ih unary' trivial trivial
  | term power factors ih₁ ih₂ =>
    cases h₂ with
    | term power' factors' =>
      obtain ⟨rfl, rfl⟩ := ih₁ power' (factors.endsPower e₁) (factors'.endsPower e₂)
      exact ih₂ factors' e₁ e₂
  | factor written symbol power factors ih₁ ih₂ =>
    cases h₂ with
    | factor written' symbol' power' factors' =>
      rw [symbol] at symbol'
      cases symbol'
      cases Link.symbol?_injective written written'
      obtain ⟨rfl, rfl⟩ := ih₁ power' (factors.endsPower e₁) (factors'.endsPower e₂)
      exact ih₂ factors' e₁ e₂
    | implicitFactor start => exact absurd start (not_startsAlone_of_link written symbol)
    | noFactor => exact absurd symbol (e₂.noOperator _ _ written)
  | implicitFactor start power factors ih₁ ih₂ =>
    cases h₂ with
    | factor written symbol => exact absurd start (not_startsAlone_of_link written symbol)
    | implicitFactor start' power' factors' =>
      obtain ⟨rfl, rfl⟩ := ih₁ power' (factors.endsPower e₁) (factors'.endsPower e₂)
      exact ih₂ factors' e₁ e₂
    | noFactor => exact absurd start e₂.noImplicit
  | noFactor =>
    cases h₂ with
    | factor written symbol => exact absurd symbol (e₁.noOperator _ _ written)
    | implicitFactor start => exact absurd start e₁.noImplicit
    | noFactor => exact ⟨rfl, rfl⟩
  | expression term terms ih₁ ih₂ =>
    cases h₂ with
    | expression term' terms' =>
      obtain ⟨rfl, rfl⟩ := ih₁ term' (terms.endsTerm e₁) (terms'.endsTerm e₂)
      exact ih₂ terms' e₁ e₂
  | furtherTerm symbol term terms ih₁ ih₂ =>
    cases h₂ with
    | furtherTerm symbol' term' terms' =>
      rw [symbol] at symbol'
      cases Sign.symbol_injective (Option.some.inj symbol')
      obtain ⟨rfl, rfl⟩ := ih₁ term' (terms.endsTerm e₁) (terms'.endsTerm e₂)
      exact ih₂ terms' e₁ e₂
    | noTerm => exact absurd symbol (e₂.noTerm _)
  | noTerm =>
    cases h₂ with
    | furtherTerm symbol => exact absurd symbol (e₁.noTerm _)
    | noTerm => exact ⟨rfl, rfl⟩

end Calculator
