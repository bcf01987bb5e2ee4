import Calculator.Proofs.Grammar.Sentences

/-!
# Two readings side by side

Two sequences of tokens are read side by side, from places that belong together. Powers, products,
sums and arguments are read alike on both sides as soon as signed operands and exponents are, because
what joins two operands comes next on both sides or on neither. The side on the left may nest deeper,
so it alone may be found too deep.
-/
namespace Calculator

section

variable {α β γ δ : Type} {related : α → β → Prop} {related' : γ → δ → Prop}

/-- The nesting is found too deep on the left, both sides meet a fault of one kind, or both have
results that belong together. -/
inductive Matches (related : α → β → Prop) : Except Fault α → Except Fault β → Prop
  | tooLarge {fault : Fault} (kind : fault.kind = .tooLarge) (other : Except Fault β) :
      Matches related (.error fault) other
  | fault {fault fault' : Fault} (kind : fault.kind = fault'.kind) :
      Matches related (.error fault) (.error fault')
  | value {x : α} {y : β} (h : related x y) : Matches related (.ok x) (.ok y)

/-- Steps that match are followed by steps that match. -/
theorem Matches.bind {step : Except Fault α} {step' : Except Fault β} {next : α → Except Fault γ}
    {next' : β → Except Fault δ} (h : Matches related step step')
    (further : ∀ {x y}, step = .ok x → step' = .ok y → related x y →
      Matches related' (next x) (next' y)) :
    Matches related' (step >>= next) (step' >>= next') := by
  cases h with
  | tooLarge kind other => exact .tooLarge kind _
  | fault kind => exact .fault kind
  | value h => exact further rfl rfl h

/-- Unless the left one is found too deep, matching outcomes are the same value or faults of one
kind. -/
theorem Matches.kind_eq {step step' : Except Fault α} (h : Matches (· = ·) step step')
    (small : ∀ fault, step = .error fault → fault.kind ≠ .tooLarge) :
    step.mapError Fault.kind = step'.mapError Fault.kind := by
  cases h with
  | tooLarge kind other => exact absurd kind (small _ rfl)
  | fault kind => exact congrArg Except.error kind
  | value same => rw [same]

/-- Outcomes that match either way round are the same value or faults of one kind. -/
theorem Matches.kind_eq_of_both {step step' : Except Fault α} (h : Matches (· = ·) step step')
    (h' : Matches (· = ·) step' step) : step.mapError Fault.kind = step'.mapError Fault.kind := by
  cases h with
  | tooLarge kind other =>
    cases h' with
    | tooLarge kind' other => exact congrArg Except.error (kind.trans kind'.symm)
    | fault kind' => exact congrArg Except.error kind'.symm
  | fault kind => exact congrArg Except.error kind
  | value same => rw [same]

end

/-- The same result, at places that belong together. -/
def SameAt {α : Type} (places : Cursor → Cursor → Prop) (result result' : α × Cursor) : Prop :=
  result.1 = result'.1 ∧ places result.2 result'.2

/-- Places that belong together before an operand and behind one. Behind an operand the same operator
comes next on both sides, or a factor by itself, and behind these there is a place for an operand. -/
structure Joins (before behind : Cursor → Cursor → Prop) : Prop where
  operator?_eq {c c' : Cursor} (h : behind c c') : c.operator? = c'.operator?
  startsAlone_iff {c c' : Cursor} (h : behind c c') : c.StartsAlone ↔ c'.StartsAlone
  before_of_startsAlone {c c' : Cursor} (h : behind c c') (start : c.StartsAlone) : before c c'
  advance {c c' : Cursor} (h : behind c c') {o : Operator} (next : c.operator? = some o)
    (opening : o ≠ .opening) (closing : o ≠ .closing) : before c.advance c'.advance

/-- The value of a function at arguments that have been read. -/
def called (name : List Char) (function : Function)
    (step : Except Fault (List Binary64 × Cursor)) : Except Fault (Binary64 × Cursor) := do
  let (arguments, c) ← step
  match function.valueAt? arguments with
  | some value => .ok (value, c)
  | none => .error (.wrongCount name function.arity arguments.length)

theorem called_matches {places : Cursor → Cursor → Prop} (name : List Char) (function : Function)
    {step step' : Except Fault (List Binary64 × Cursor)} (h : Matches (SameAt places) step step') :
    Matches (SameAt places) (called name function step) (called name function step') := by
  refine h.bind ?_
  rintro ⟨arguments, c⟩ ⟨_, c'⟩ - - ⟨rfl, further⟩
  dsimp only
  cases function.valueAt? arguments with
  | none => exact .fault rfl
  | some value => exact .value ⟨rfl, further⟩

namespace Rules

theorem named_of_function {registry : Registry} {name : List Char} {function : Function}
    (found : registry.function? name = some function) (inner : Rules) (c : Cursor) :
    named registry inner name c =
      if c.operator? = some .opening then called name function (inner.arguments c.advance)
      else .error (.functionAsValue name) := by
  rw [named, found]
  rfl

theorem named_of_no_function {registry : Registry} {name : List Char}
    (missing : registry.function? name = none) (inner : Rules) (c : Cursor) :
    named registry inner name c =
      match registry.constant? name with
      | some value => if c.operator? = some .opening then .error (.notFunction name)
        else .ok (value, c)
      | none => .error (.unknownName name) := by
  cases constant : registry.constant? name <;> simp only [named, missing, constant]

/-- Rules that read signed operands and exponents alike, over two registries. -/
structure Beside (before behind : Cursor → Cursor → Prop) (registry registry' : Registry)
    (inner inner' : Rules) : Prop where
  joins : Joins before behind
  derive : inner.Derive
  derive' : inner'.Derive
  signed {c c' : Cursor} (h : before c c') :
    Matches (SameAt behind) (signed registry inner c) (signed registry' inner' c')
  power {c c' : Cursor} (h : before c c') :
    Matches (SameAt behind) (inner.power c) (inner'.power c')

namespace Beside

variable {before behind : Cursor → Cursor → Prop} {registry registry' : Registry}
  {inner inner' : Rules} (rules : Beside before behind registry registry' inner inner')
  {c c' : Cursor}

include rules

theorem raised (h : before c c') :
    Matches (SameAt behind) (raised registry inner c) (raised registry' inner' c') := by
  refine (rules.signed h).bind ?_
  rintro ⟨base, c₁⟩ ⟨_, c₂⟩ - - ⟨rfl, further⟩
  dsimp only at further ⊢
  rw [← rules.joins.operator?_eq further]
  by_cases symbol : c₁.operator? = some .power
  · rw [if_pos symbol, if_pos symbol]
    refine (rules.power (rules.joins.advance further symbol (by decide) (by decide))).bind ?_
    rintro ⟨exponent, c₁⟩ ⟨_, c₂⟩ - - ⟨rfl, further⟩
    exact .value ⟨rfl, further⟩
  · rw [if_neg symbol, if_neg symbol]
    exact .value ⟨rfl, further⟩

theorem factors {bound bound' : Nat} {left : Binary64} (h : behind c c')
    (enough : c.rest.length ≤ bound) (enough' : c'.rest.length ≤ bound') :
    Matches (SameAt behind) (factors registry inner bound left c)
      (factors registry' inner' bound' left c') := by
  induction size : c.rest.length using Nat.strongRecOn
    generalizing bound bound' left c c' with
  | ind count ih =>
    -- what stands behind a factor is shorter on both sides, and the bounds are still enough for it
    have further : ∀ {link : Link} {right : Binary64} {b b' : Nat} {c₁ c₂ : Cursor},
        behind c₁ c₂ → c₁.rest.length < count → c₁.rest.length ≤ b → c₂.rest.length ≤ b' →
        Matches (SameAt behind)
          (Syntax.readLink link left right >>= fun value =>
            Rules.factors registry inner b value c₁)
          (Syntax.readLink link left right >>= fun value =>
            Rules.factors registry' inner' b' value c₂) := by
      intro link right b b' c₁ c₂ h shorter enough enough'
      cases Syntax.readLink link left right with
      | error fault => exact .fault rfl
      | ok value => exact ih _ shorter h enough enough' rfl
    rcases c.factor_cases with ⟨link, operator, written, symbol⟩ | start | ⟨noLink, noStart⟩
    · have symbol' := symbol
      rw [rules.joins.operator?_eq h] at symbol'
      have passed := Cursor.length_advance (Cursor.next?_of_operator? symbol)
      have passed' := Cursor.length_advance (Cursor.next?_of_operator? symbol')
      obtain ⟨b, rfl⟩ : ∃ fewer, bound = fewer + 1 := ⟨bound - 1, by omega⟩
      obtain ⟨b', rfl⟩ : ∃ fewer, bound' = fewer + 1 := ⟨bound' - 1, by omega⟩
      have operand := rules.joins.advance h symbol (by cases link <;> cases written <;> decide)
        (by cases link <;> cases written <;> decide)
      rw [factors_of_link _ _ written symbol, factors_of_link _ _ written symbol']
      refine (rules.raised operand).bind ?_
      rintro ⟨right, c₁⟩ ⟨_, c₂⟩ read read' ⟨rfl, h⟩
      have shorter := length_raised rules.derive read
      have shorter' := length_raised rules.derive' read'
      exact further h (by omega) (by omega) (by omega)
    · have start' := (rules.joins.startsAlone_iff h).1 start
      obtain ⟨lexeme, next⟩ := start.next?
      obtain ⟨lexeme', next'⟩ := start'.next?
      have passed := Cursor.length_advance next
      have passed' := Cursor.length_advance next'
      obtain ⟨b, rfl⟩ : ∃ fewer, bound = fewer + 1 := ⟨bound - 1, by omega⟩
      obtain ⟨b', rfl⟩ : ∃ fewer, bound' = fewer + 1 := ⟨bound' - 1, by omega⟩
      rw [factors_of_startsAlone _ _ start, factors_of_startsAlone _ _ start']
      refine (rules.raised (rules.joins.before_of_startsAlone h start)).bind ?_
      rintro ⟨right, c₁⟩ ⟨_, c₂⟩ read read' ⟨rfl, h⟩
      have shorter := length_raised rules.derive read
      have shorter' := length_raised rules.derive' read'
      exact further h (by omega) (by omega) (by omega)
    · have noLink' := noLink
      have noStart' := noStart
      rw [rules.joins.operator?_eq h] at noLink'
      rw [rules.joins.startsAlone_iff h] at noStart'
      rw [factors_of_neither _ _ noLink noStart, factors_of_neither _ _ noLink' noStart']
      exact .value ⟨rfl, h⟩

theorem term (h : before c c') :
    Matches (SameAt behind) (term registry inner c) (term registry' inner' c') := by
  refine (rules.raised h).bind ?_
  rintro ⟨left, c₁⟩ ⟨_, c₂⟩ - - ⟨rfl, further⟩
  exact rules.factors further (Nat.le_refl _) (Nat.le_refl _)

theorem terms {bound bound' : Nat} {left : Binary64} (h : behind c c')
    (enough : c.rest.length ≤ bound) (enough' : c'.rest.length ≤ bound') :
    Matches (SameAt behind) (terms registry inner bound left c)
      (terms registry' inner' bound' left c') := by
  induction size : c.rest.length using Nat.strongRecOn
    generalizing bound bound' left c c' with
  | ind count ih =>
    by_cases symbol : ∃ sign : Sign, c.operator? = some sign.symbol
    · obtain ⟨sign, symbol⟩ := symbol
      have symbol' := symbol
      rw [rules.joins.operator?_eq h] at symbol'
      have passed := Cursor.length_advance (Cursor.next?_of_operator? symbol)
      have passed' := Cursor.length_advance (Cursor.next?_of_operator? symbol')
      obtain ⟨b, rfl⟩ : ∃ fewer, bound = fewer + 1 := ⟨bound - 1, by omega⟩
      obtain ⟨b', rfl⟩ : ∃ fewer, bound' = fewer + 1 := ⟨bound' - 1, by omega⟩
      have operand := rules.joins.advance h symbol (by cases sign <;> decide)
        (by cases sign <;> decide)
      rw [terms_of_sign _ _ symbol, terms_of_sign _ _ symbol']
      refine (rules.term operand).bind ?_
      rintro ⟨right, c₁⟩ ⟨_, c₂⟩ read read' ⟨rfl, further⟩
      have shorter := length_term rules.derive read
      have shorter' := length_term rules.derive' read'
      exact ih c₁.rest.length (by omega) further (by omega) (by omega) rfl
    · have absent : ∀ sign : Sign, c.operator? ≠ some sign.symbol := fun sign found =>
        symbol ⟨sign, found⟩
      rw [terms_of_no_sign _ _ absent,
        terms_of_no_sign _ _ (by rwa [← rules.joins.operator?_eq h])]
      exact .value ⟨rfl, h⟩

theorem sum (h : before c c') :
    Matches (SameAt behind) (sum registry inner c) (sum registry' inner' c') := by
  refine (rules.term h).bind ?_
  rintro ⟨left, c₁⟩ ⟨_, c₂⟩ - - ⟨rfl, further⟩
  exact rules.terms further (Nat.le_refl _) (Nat.le_refl _)

theorem moreArguments {bound bound' : Nat} (h : behind c c') (enough : c.rest.length ≤ bound)
    (enough' : c'.rest.length ≤ bound') :
    Matches (SameAt behind) (moreArguments registry inner bound c)
      (moreArguments registry' inner' bound' c') := by
  induction size : c.rest.length using Nat.strongRecOn
    generalizing bound bound' c c' with
  | ind count ih =>
    by_cases comma : c.operator? = some .comma
    · have comma' := comma
      rw [rules.joins.operator?_eq h] at comma'
      have passed := Cursor.length_advance (Cursor.next?_of_operator? comma)
      have passed' := Cursor.length_advance (Cursor.next?_of_operator? comma')
      obtain ⟨b, rfl⟩ : ∃ fewer, bound = fewer + 1 := ⟨bound - 1, by omega⟩
      obtain ⟨b', rfl⟩ : ∃ fewer, bound' = fewer + 1 := ⟨bound' - 1, by omega⟩
      rw [moreArguments_of_comma _ _ comma, moreArguments_of_comma _ _ comma']
      refine (rules.sum (rules.joins.advance h comma (by decide) (by decide))).bind ?_
      rintro ⟨value, c₁⟩ ⟨_, c₂⟩ read read' ⟨rfl, further⟩
      have shorter := length_sum rules.derive read
      have shorter' := length_sum rules.derive' read'
      have tail : Matches (SameAt behind) (Rules.moreArguments registry inner b c₁)
          (Rules.moreArguments registry' inner' b' c₂) :=
        ih c₁.rest.length (by omega) further (by omega) (by omega) rfl
      refine tail.bind ?_
      rintro ⟨values, c₁⟩ ⟨_, c₂⟩ - - ⟨rfl, further⟩
      exact .value ⟨rfl, further⟩
    · rw [moreArguments_of_no_comma _ _ comma,
        moreArguments_of_no_comma _ _ (by rwa [← rules.joins.operator?_eq h])]
      exact .value ⟨rfl, h⟩

end Beside

end Rules

/-- Whole expressions have the same value or faults of one kind if their sums are read alike. -/
theorem Tokens.value_matches_of_sum {registry registry' : Registry} {limit : Nat}
    {tokens tokens' : Tokens} {behind : Cursor → Cursor → Prop}
    (empty : tokens.start.AtEnd ↔ tokens'.start.AtEnd)
    (ends : ∀ {c c'}, behind c c' → (c.AtEnd ↔ c'.AtEnd))
    (read : Matches (SameAt behind)
      (Rules.sum registry (Rules.inside registry limit limit) tokens.start)
      (Rules.sum registry' (Rules.inside registry' limit limit) tokens'.start)) :
    Matches (· = ·) (tokens.value registry limit) (tokens'.value registry' limit) := by
  cases tokens with
  | finish position =>
    cases tokens' with
    | finish position' => exact .fault rfl
    | token lexeme' position' rest' => cases empty.1 rfl
  | token lexeme position rest =>
    cases tokens' with
    | finish position' => cases empty.2 rfl
    | token lexeme' position' rest' =>
      unfold value
      rw [Rules.nested_eq, Rules.nested_eq]
      refine read.bind ?_
      rintro ⟨x, c⟩ ⟨_, c'⟩ - - ⟨rfl, further⟩
      have passed := ends further
      simp only [Cursor.AtEnd, Cursor.next?] at passed
      dsimp only
      cases left : c.rest with
      | finish position =>
        cases right : c'.rest with
        | finish position' => exact .value rfl
        | token lexeme' position' rest' => simp [left, right] at passed
      | token lexeme position rest =>
        cases right : c'.rest with
        | finish position' => simp [left, right] at passed
        | token lexeme' position' rest' => exact .fault rfl

end Calculator
