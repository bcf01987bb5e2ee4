import Calculator.Proofs.Grammar.SideBySide
import Calculator.Proofs.Grammar.Writing

/-!
# Functions that nobody calls

A function is applied only where its name stands in front of a parenthesis. Where no function does,
it matters which names are those of functions, but not what the functions are: two registries of the
same names and the same constants give the same outcome.
-/
namespace Calculator

/-- The same names are those of functions, and the constants are the same. -/
structure SameNames (registry registry' : Registry) : Prop where
  function (name : List Char) :
    (registry.function? name).isSome = (registry'.function? name).isSome
  constant (name : List Char) : registry.constant? name = registry'.constant? name

theorem SameNames.function?_eq_none {registry registry' : Registry}
    (names : SameNames registry registry') {name : List Char}
    (missing : registry.function? name = none) : registry'.function? name = none := by
  have same := names.function name
  rw [missing] at same
  exact Option.isNone_iff_eq_none.1 (Option.isSome_eq_false_iff.1 same.symm)

/-- No function's name stands in front of a parenthesis. -/
def Uncalled (registry : Registry) (lexemes : List Lexeme) : Prop :=
  ∀ front name behind, lexemes = front ++ .name name :: .operator .opening :: behind →
    registry.function? name = none

/-- A place behind which no function is called. -/
def Cursor.Uncalled (registry : Registry) (c : Cursor) : Prop :=
  Calculator.Uncalled registry c.rest.lexemes

theorem Cursor.Uncalled.advance {registry : Registry} {c : Cursor} (h : c.Uncalled registry) :
    c.advance.Uncalled registry := by
  unfold Cursor.advance
  split
  · exact h
  · rename_i lexeme position rest found
    rw [Cursor.Uncalled, found] at h
    intro front name behind same
    exact h (lexeme :: front) name behind (congrArg (lexeme :: ·) same)

/-- Behind the name of a function comes no parenthesis. -/
theorem Cursor.Uncalled.operator?_ne_opening {registry : Registry} {c : Cursor} {name : List Char}
    {function : Function} (h : c.Uncalled registry) (next : c.next? = some (.name name))
    (found : registry.function? name = some function) : c.advance.operator? ≠ some .opening := by
  intro opening
  obtain ⟨_, first⟩ := Cursor.rest_of_next? next
  obtain ⟨_, second⟩ := Cursor.rest_of_next? (Cursor.next?_of_operator? opening)
  rw [Cursor.Uncalled, first, second] at h
  have missing := h [] name _ rfl
  rw [found] at missing
  cases missing

/-- Both steps have the same outcome, at a place behind which no function is called. -/
structure Unaffected (registry : Registry) (step step' : Except Fault (Binary64 × Cursor)) :
    Prop where
  same : step = step'
  behind {x : Binary64} {c : Cursor} (h : step = .ok (x, c)) : c.Uncalled registry

namespace Unaffected

variable {registry : Registry}

theorem fault (f : Fault) : Unaffected registry (.error f) (.error f) where
  same := rfl
  behind h := by cases h

theorem value (x : Binary64) {c : Cursor} (h : c.Uncalled registry) :
    Unaffected registry (.ok (x, c)) (.ok (x, c)) where
  same := rfl
  behind same := by cases same; exact h

theorem bind {step step' : Except Fault (Binary64 × Cursor)}
    {next next' : Binary64 × Cursor → Except Fault (Binary64 × Cursor)}
    (first : Unaffected registry step step')
    (further : ∀ x c, c.Uncalled registry → Unaffected registry (next (x, c)) (next' (x, c))) :
    Unaffected registry (step >>= next) (step' >>= next') := by
  obtain ⟨rfl, behind⟩ := first
  cases step with
  | error f => exact fault f
  | ok result =>
    obtain ⟨x, c⟩ := result
    exact further x c (behind rfl)

end Unaffected

namespace Rules

/-- Rules that are unaffected as long as no function is called. Arguments are read only of what is
called. -/
structure Unaffected (registry : Registry) (inner inner' : Rules) : Prop where
  expression {c : Cursor} (h : c.Uncalled registry) :
    Calculator.Unaffected registry (inner.expression c) (inner'.expression c)
  power {c : Cursor} (h : c.Uncalled registry) :
    Calculator.Unaffected registry (inner.power c) (inner'.power c)
  unary {c : Cursor} (h : c.Uncalled registry) :
    Calculator.Unaffected registry (inner.unary c) (inner'.unary c)

theorem unaffected_refuse (registry : Registry) (limit : Nat) :
    (refuse limit).Unaffected registry (refuse limit) where
  expression _ := .fault _
  power _ := .fault _
  unary _ := .fault _

namespace Unaffected

variable {registry registry' : Registry} {inner inner' : Rules}
  (rules : inner.Unaffected registry inner') {c : Cursor}

section

variable (names : SameNames registry registry')

include names

theorem named {name : List Char} (next : c.next? = some (.name name)) (h : c.Uncalled registry) :
    Calculator.Unaffected registry (named registry inner name c.advance)
      (named registry' inner' name c.advance) := by
  cases found : registry.function? name with
  | some function =>
    have alone := h.operator?_ne_opening next found
    obtain ⟨function', found'⟩ : ∃ function', registry'.function? name = some function' := by
      rw [← Option.isSome_iff_exists, ← names.function name, found]
      rfl
    rw [named_of_function found, named_of_function found', if_neg alone, if_neg alone]
    exact .fault _
  | none =>
    rw [named_of_no_function found, named_of_no_function (names.function?_eq_none found),
      names.constant name]
    cases registry'.constant? name with
    | none => exact .fault _
    | some x =>
      by_cases opening : c.advance.operator? = some .opening
      · simp only [if_pos opening]
        exact .fault _
      · simp only [if_neg opening]
        exact .value x h.advance

include rules

theorem primary (h : c.Uncalled registry) :
    Calculator.Unaffected registry (primary registry inner c) (primary registry' inner' c) := by
  cases found : c.rest with
  | finish position =>
    simp only [Rules.primary, found]
    exact .fault _
  | token lexeme position rest =>
    cases lexeme with
    | number n =>
      simp only [Rules.primary, found]
      exact .value _ h.advance
    | name name =>
      have next : c.next? = some (.name name) := by rw [Cursor.next?, found]
      rw [primary_of_name _ _ next, primary_of_name _ _ next]
      exact named names next h
    | operator o =>
      by_cases opening : o = .opening
      · subst opening
        simp only [Rules.primary, found]
        refine (rules.expression h.advance).bind fun x c h => ?_
        dsimp only
        cases closed : c.expect .closing with
        | error f => exact .fault f
        | ok c' =>
          obtain ⟨-, rfl⟩ := Cursor.expect_success closed
          exact .value x h.advance
      · simp only [Rules.primary, found]
        cases o with
        | opening => exact absurd rfl opening
        | _ => exact .fault _

theorem signed (h : c.Uncalled registry) :
    Calculator.Unaffected registry (signed registry inner c) (signed registry' inner' c) := by
  unfold Rules.signed
  split
  · exact (rules.unary h.advance).bind fun x c h => .value _ h
  · exact rules.unary h.advance
  · exact rules.primary names h

theorem raised (h : c.Uncalled registry) :
    Calculator.Unaffected registry (raised registry inner c) (raised registry' inner' c) := by
  refine (rules.signed names h).bind fun base c h => ?_
  dsimp only
  split
  · exact (rules.power h.advance).bind fun exponent c h => .value _ h
  · exact .value base h

theorem factors (bound : Nat) {left : Binary64} (h : c.Uncalled registry) :
    Calculator.Unaffected registry (factors registry inner bound left c)
      (factors registry' inner' bound left c) := by
  induction bound generalizing left c with
  | zero => exact .value left h
  | succ bound ih =>
    rw [Rules.factors, Rules.factors]
    split
    · refine (rules.raised names h.advance).bind fun right c h => ?_
      dsimp only
      cases multiplicative _ left right with
      | error f => exact .fault f
      | ok x => exact ih h
    · split
      · exact (rules.raised names h).bind fun right c h => ih h
      · exact .value left h

theorem term (h : c.Uncalled registry) :
    Calculator.Unaffected registry (term registry inner c) (term registry' inner' c) :=
  (rules.raised names h).bind fun _ c h => rules.factors names c.rest.length h

theorem terms (bound : Nat) {left : Binary64} (h : c.Uncalled registry) :
    Calculator.Unaffected registry (terms registry inner bound left c)
      (terms registry' inner' bound left c) := by
  induction bound generalizing left c with
  | zero => exact .value left h
  | succ bound ih =>
    rw [Rules.terms, Rules.terms]
    split
    · exact (rules.term names h.advance).bind fun right c h => ih h
    · exact .value left h

theorem sum (h : c.Uncalled registry) :
    Calculator.Unaffected registry (sum registry inner c) (sum registry' inner' c) :=
  (rules.term names h).bind fun _ c h => rules.terms names c.rest.length h

theorem around : (around registry inner).Unaffected registry (around registry' inner') where
  expression h := rules.sum names h
  power h := rules.raised names h
  unary h := rules.signed names h

end

end Unaffected

theorem unaffected_nested {registry registry' : Registry} (names : SameNames registry registry')
    (limit levels : Nat) :
    (nested registry limit levels).Unaffected registry (nested registry' limit levels) := by
  induction levels with
  | zero => exact (unaffected_refuse registry limit).around names
  | succ levels ih => exact ih.around names

end Rules

/-- Where no function is called, it does not matter what the functions are. -/
theorem Tokens.value_eq_of_uncalled {registry registry' : Registry}
    (names : SameNames registry registry') {tokens : Tokens}
    (h : Calculator.Uncalled registry tokens.lexemes) (limit : Nat) :
    tokens.value registry limit = tokens.value registry' limit := by
  cases tokens with
  | finish position => rfl
  | token lexeme position rest =>
    have start : Cursor.Uncalled registry ⟨false, .token lexeme position rest⟩ := h
    have same := ((Rules.unaffected_nested names limit limit).expression start).same
    simp only [Tokens.value, same]

end Calculator
