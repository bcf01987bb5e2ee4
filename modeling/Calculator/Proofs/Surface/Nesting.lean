import Calculator.Proofs.Grammar.Levels
import Calculator.Proofs.Surface.Formula
import Mathlib.Control.Monad.Basic

/-!
# The nesting of a formula

The canonical form of a formula is a sentence of the grammar that nests deeper than the formula
does: a constant brings parentheses, and a sign if it is negative, and a call of an angle brings a
second one in degrees. Whether a formula is refused for its depth is decided by that nesting.
-/
namespace Calculator

/-! ## The nesting of the canonical form -/

/-- How deep the base of a power nests that stands before the argument. -/
def SurfaceFunction.baseDepth : SurfaceFunction → Nat
  | .powE => 1
  | _ => 0

namespace Formula

/-- How deep the canonical form nests: a constant is a literal in parentheses, and a call is one of
each of its primitives. -/
def nesting (mode : AngleMode) (answer : Binary64) : Formula → Nat
  | .numeral _ | .name _ => 0
  | .constant c => literalDepth (c.value answer) + 1
  | .group inner => inner.nesting mode answer + 1
  | .call f arguments =>
    max f.baseDepth (arguments.nesting mode answer) + (f.stages mode).length
  | .apply _ arguments => arguments.nesting mode answer + 1
  | .further first arguments => max (first.nesting mode answer) (arguments.nesting mode answer)
  | .signed _ operand => operand.nesting mode answer + 1
  | .power base exponent => max (base.nesting mode answer) (exponent.nesting mode answer + 1)
  | .product _ left right | .sum _ left right =>
    max (left.nesting mode answer) (right.nesting mode answer)

theorem literalDepth_le (x : Binary64) : literalDepth x ≤ 1 := by
  unfold literalDepth
  split <;> decide

/-- The canonical form nests at least as deep as the formula. -/
theorem depth_le_nesting (mode : AngleMode) (answer : Binary64) (t : Formula) :
    t.depth ≤ t.nesting mode answer := by
  have stages : ∀ f : SurfaceFunction, 1 ≤ (f.stages mode).length := by
    intro f
    cases f <;> cases mode <;> decide
  induction t with
  | numeral n => exact Nat.le_refl _
  | constant c => exact Nat.zero_le _
  | name w => exact Nat.le_refl _
  | call f arguments ih =>
    have stage := stages f
    rw [depth, nesting]
    omega
  | _ =>
    rw [depth, nesting]
    omega

/-- Each level of the formula is one of the canonical form for each primitive of a call, and a
constant at the bottom is two at most. -/
theorem nesting_le {mode : AngleMode} {k : Nat} (positive : 1 ≤ k)
    (stages : ∀ f : SurfaceFunction, (f.stages mode).length ≤ k) (answer : Binary64)
    (t : Formula) : t.nesting mode answer ≤ t.depth * k + 2 := by
  have base : ∀ f : SurfaceFunction, f.baseDepth ≤ 1 := by
    intro f
    cases f <;> decide
  induction t with
  | numeral n => exact Nat.zero_le _
  | constant c =>
    have literal := literalDepth_le (c.value answer)
    rw [depth, nesting]
    omega
  | name w => exact Nat.zero_le _
  | call f arguments ih =>
    have stage := stages f
    have first := base f
    rw [depth, nesting, Nat.succ_mul]
    omega
  | group inner ih | apply w inner ih | signed sign inner ih =>
    rw [depth, nesting, Nat.succ_mul]
    omega
  | power base exponent ih₁ ih₂ =>
    rw [depth, nesting, ← Nat.mul_max_mul_right, Nat.succ_mul]
    omega
  | further left right ih₁ ih₂ | product link left right ih₁ ih₂ | sum sign left right ih₁ ih₂ =>
    rw [depth, nesting, ← Nat.mul_max_mul_right]
    omega

theorem nesting_le_double (mode : AngleMode) (answer : Binary64) (t : Formula) :
    t.nesting mode answer ≤ t.depth * 2 + 2 :=
  nesting_le (by decide) (fun f => by cases f <;> cases mode <;> decide) answer t

theorem nesting_radians_le (answer : Binary64) (t : Formula) :
    t.nesting .radians answer ≤ t.depth + 2 := by
  have stages : ∀ f : SurfaceFunction, (f.stages .radians).length ≤ 1 := by
    intro f
    cases f <;> decide
  have single := nesting_le (Nat.le_refl 1) stages answer t
  rwa [Nat.mul_one] at single

/-- In radians nothing nests deeper than in degrees. -/
theorem nesting_radians_le_degrees (answer : Binary64) (t : Formula) :
    t.nesting .radians answer ≤ t.nesting .degrees answer := by
  have stages : ∀ f : SurfaceFunction,
      (f.stages .radians).length ≤ (f.stages .degrees).length := by
    intro f
    cases f <;> decide
  induction t with
  | numeral n => exact Nat.le_refl _
  | constant c => exact Nat.le_refl _
  | name w => exact Nat.le_refl _
  | call f arguments ih =>
    have stage := stages f
    rw [nesting, nesting]
    omega
  | _ =>
    rw [nesting, nesting]
    omega

end Formula

/-! ## Derivations of the canonical form -/

/-- The opening of calls, one inside the other, is followed by what closes them. -/
theorem derives_stages {stages : List Primitive} (nonempty : stages ≠ []) {c : Cursor}
    {inner rest : List Lexeme} {depth : Nat}
    (next : c.rest.lexemes =
      stages.flatMap (fun p => [.name p.name, .operator .opening]) ++ inner)
    (arguments : ∀ c₁ : Cursor, c₁.rest.lexemes = inner → c₁.afterClosing = false →
      ∃ ts c₂, DerivesAll c₁ ts c₂ ∧ Syntax.depthAll ts = depth ∧
        c₂.rest.lexemes = List.replicate stages.length (.operator .closing) ++ rest) :
    ∃ t c', Derives .primary c t c' ∧ t.depth = depth + stages.length ∧
      c'.rest.lexemes = rest ∧ c'.afterClosing = true := by
  induction stages generalizing c rest with
  | nil => exact absurd rfl nonempty
  | cons p stages ih =>
    rw [List.flatMap_cons, List.cons_append, List.cons_append] at next
    obtain ⟨name, behind⟩ := Cursor.next?_of_lexemes next
    obtain ⟨opening, behind⟩ := Cursor.operator?_of_lexemes behind
    -- the innermost call has the arguments, and any other one has the next call
    have inside : ∃ ts c₂, DerivesAll c.advance.advance ts c₂ ∧
        Syntax.depthAll ts = depth + stages.length ∧
        c₂.rest.lexemes = .operator .closing :: rest := by
      by_cases last : stages = []
      · subst last
        have plain := Cursor.afterClosing_advance (Cursor.next?_of_operator? opening)
        exact arguments _ behind plain
      · obtain ⟨t, c₂, derived, fits, behind, -⟩ := ih last behind fun c₁ h plain => by
          obtain ⟨ts, c₂, further, fits, closings⟩ := arguments c₁ h plain
          refine ⟨ts, c₂, further, fits, ?_⟩
          rw [closings, List.length_cons, List.replicate_succ', List.append_assoc]
        refine ⟨[t], c₂, .last (Derives.expression_of_primary derived), ?_, behind⟩
        rw [Syntax.depthAll, Syntax.depthAll, Nat.max_zero, fits]
    obtain ⟨ts, c₂, derived, fits, behind⟩ := inside
    obtain ⟨closing, behind⟩ := Cursor.operator?_of_lexemes behind
    have closed := Cursor.afterClosing_advance (Cursor.next?_of_operator? closing)
    refine ⟨.call p.name ts, _, .call name opening (derived.call closing p.name), ?_, behind,
      closed⟩
    rw [Syntax.depth, fits, List.length_cons, Nat.add_assoc]

/-- The base of a power is the first argument. -/
theorem SurfaceFunction.derives_base (f : SurfaceFunction) {c : Cursor} {inner : List Lexeme}
    {depth : Nat} {behind : Cursor → Prop} (next : c.rest.lexemes = f.baseLexemes ++ inner)
    (plain : c.afterClosing = false)
    (arguments : ∀ c₁ : Cursor, c₁.rest.lexemes = inner → c₁.afterClosing = false →
      ∃ ts c₂, DerivesAll c₁ ts c₂ ∧ Syntax.depthAll ts = depth ∧ behind c₂) :
    ∃ ts c₂, DerivesAll c ts c₂ ∧ Syntax.depthAll ts = max f.baseDepth depth ∧ behind c₂ := by
  have further : ∀ {c₁ : Cursor} {t : Syntax}, Derives .expression c t c₁ →
      c₁.rest.lexemes = .operator .comma :: inner → t.depth = f.baseDepth →
      ∃ ts c₂, DerivesAll c ts c₂ ∧ Syntax.depthAll ts = max f.baseDepth depth ∧ behind c₂ := by
    intro c₁ t base h level
    obtain ⟨comma, rest⟩ := Cursor.operator?_of_lexemes h
    have plain := Cursor.afterClosing_advance (Cursor.next?_of_operator? comma)
    obtain ⟨ts, c₂, derived, fits, ends⟩ := arguments _ rest plain
    refine ⟨t :: ts, c₂, .next base comma derived, ?_, ends⟩
    rw [Syntax.depthAll, level, fits]
  cases f with
  | pow10 =>
    obtain ⟨ten, rest⟩ := Cursor.next?_of_lexemes next
    exact further (Derives.expression_of_primary (.number ten)) rest rfl
  | powE =>
    have euler : literalDepth .euler = 0 := by decide +kernel
    rw [baseLexemes, List.append_assoc] at next
    obtain ⟨t, writes, -, level⟩ := writes_literal .euler
    obtain ⟨c₁, derived, rest, -⟩ := writes.derives_group next
    refine further (Derives.expression_of_primary derived) rest ?_
    rw [Syntax.depth, level, euler]
    rfl
  | _ =>
    obtain ⟨ts, c₂, derived, fits, ends⟩ := arguments c next plain
    exact ⟨ts, c₂, derived, fits.trans (Nat.zero_max _).symm, ends⟩

/-- What closes a call closes each of its primitives. -/
theorem SurfaceFunction.closingLexemes_eq (mode : AngleMode) (f : SurfaceFunction)
    (rest : List Lexeme) :
    .operator .closing :: (mode.closingLexemes f.isAngular ++ rest) =
      List.replicate (f.stages mode).length (.operator .closing) ++ rest := by
  cases mode <;> cases f <;> rfl

section Places

variable (mode : AngleMode) (answer : Binary64)

/-- The cursor stands in the canonical form where the place is between the tokens. -/
structure StandsAt (opened : List Bool) (p : Place) (c : Cursor) : Prop where
  lexemes : c.rest.lexemes = canonicalLexemes mode answer opened p.rest
  closed : c.afterClosing = p.closed

/-- A tree of the formula's nesting is derived up to the place. -/
def DerivesTo (opened : List Bool) (category : Category) (c : Cursor) (t : Formula)
    (p : Place) : Prop :=
  ∃ tree c', Derives category c tree c' ∧ tree.depth = t.nesting mode answer ∧
    StandsAt mode answer opened p c'

/-- The phrase of the formula is derived up to the place. What goes on from something to its left
goes on from any tree that nests as deep. -/
def DerivesPhrase (opened : List Bool) : Phrase → Cursor → Formula → Place → Prop
  | .primary => DerivesTo mode answer opened .primary
  | .unary => DerivesTo mode answer opened .unary
  | .power => DerivesTo mode answer opened .power
  | .term => DerivesTo mode answer opened .term
  | .expression => DerivesTo mode answer opened .expression
  | .factors left => fun c t p => ∀ tree : Syntax, tree.depth = left.nesting mode answer →
    DerivesTo mode answer opened (.factors tree) c t p
  | .terms left => fun c t p => ∀ tree : Syntax, tree.depth = left.nesting mode answer →
    DerivesTo mode answer opened (.terms tree) c t p
  | .arguments => fun c t p => ∃ trees c', DerivesAll c trees c' ∧
    Syntax.depthAll trees = t.nesting mode answer ∧ StandsAt mode answer opened p c'

variable {mode answer}
variable {opened : List Bool} {p : Place} {c : Cursor} {rest : List SurfaceLexeme}

namespace StandsAt

/-- One lexeme is passed. -/
theorem next (h : StandsAt mode answer opened p c) {opened' : List Bool} {lexeme : Lexeme}
    (first : canonicalLexemes mode answer opened p.rest =
      lexeme :: canonicalLexemes mode answer opened' rest)
    (other : lexeme ≠ .operator .closing) :
    c.next? = some lexeme ∧ StandsAt mode answer opened' ⟨false, rest⟩ c.advance := by
  obtain ⟨next, behind⟩ := Cursor.next?_of_lexemes (h.lexemes.trans first)
  have closed := Cursor.afterClosing_advance next
  rw [decide_eq_false other] at closed
  exact ⟨next, behind, closed⟩

/-- An operator is passed. -/
theorem operator {closed : Bool} {o : Operator}
    (h : StandsAt mode answer opened ⟨closed, .operator o :: rest⟩ c) (opening : o ≠ .opening)
    (closing : o ≠ .closing) :
    c.operator? = some o ∧ StandsAt mode answer opened ⟨false, rest⟩ c.advance := by
  have first : canonicalLexemes mode answer opened (.operator o :: rest) =
      .operator o :: canonicalLexemes mode answer opened rest := by
    cases o with
    | opening => exact absurd rfl opening
    | closing => exact absurd rfl closing
    | _ => rfl
  obtain ⟨next, behind⟩ := h.next first (by simpa using closing)
  exact ⟨Cursor.operator?_of_next? next, behind⟩

theorem opening {closed : Bool}
    (h : StandsAt mode answer opened ⟨closed, .operator .opening :: rest⟩ c) :
    c.operator? = some .opening ∧
      StandsAt mode answer (false :: opened) ⟨false, rest⟩ c.advance := by
  obtain ⟨next, behind⟩ := h.next rfl (by decide)
  exact ⟨Cursor.operator?_of_next? next, behind⟩

/-- A parenthesis is closed that is no call of an angle. -/
theorem closing {closed : Bool}
    (h : StandsAt mode answer (false :: opened) ⟨closed, .operator .closing :: rest⟩ c) :
    c.operator? = some .closing ∧ StandsAt mode answer opened ⟨true, rest⟩ c.advance := by
  have plain : mode.closingLexemes false = [] := if_neg fun h => by cases h.2
  have lexemes := h.lexemes
  rw [canonicalLexemes, List.headD_cons, plain, List.nil_append, List.tail_cons] at lexemes
  obtain ⟨symbol, behind⟩ := Cursor.operator?_of_lexemes lexemes
  have closed := Cursor.afterClosing_advance (Cursor.next?_of_operator? symbol)
  exact ⟨symbol, behind, closed⟩

/-- No parenthesis comes where no argument starts. -/
theorem operator?_ne_opening (h : StandsAt mode answer opened p c)
    (alone : startsArgument p.rest = false) : c.operator? ≠ some .opening := by
  refine Cursor.operator?_ne_of_lexemes h.lexemes ?_
  cases same : p.rest with
  | nil => exact fun head => by cases head
  | cons l rest =>
    rw [same] at alone
    cases l with
    | constant c => cases alone
    | call f => cases f <;> cases mode <;> exact fun head => by cases head
    | operator o =>
      cases o with
      | opening => cases alone
      | _ => exact fun head => by cases head
    | numeral n => exact fun head => by cases head
    | name w => exact fun head => by cases head

/-- A factor starts in the canonical form where one starts. -/
theorem startsAlone (h : StandsAt mode answer opened p c) (start : p.startsFactor = true) :
    c.StartsAlone := by
  obtain ⟨closed, tokens⟩ := p
  match tokens, start with
  | .constant _ :: _, _ => exact .opening (Cursor.operator?_of_lexemes h.lexemes).1
  | .name _ :: _, _ => exact .name (Cursor.next?_of_lexemes h.lexemes).1
  | .operator .opening :: _, _ => exact .opening (Cursor.operator?_of_lexemes h.lexemes).1
  | .numeral _ :: _, behind =>
    exact .number (Cursor.next?_of_lexemes h.lexemes).1 (h.closed.trans behind)
  | .call f :: _, _ =>
    have lexemes := h.lexemes
    obtain ⟨p, stages, first⟩ : ∃ p stages, f.stages mode = p :: stages := by
      cases f <;> cases mode <;> exact ⟨_, _, rfl⟩
    rw [canonicalLexemes, SurfaceFunction.openingLexemes, first] at lexemes
    exact .name (Cursor.next?_of_lexemes lexemes).1

end StandsAt

/-- Where a formula is written, the canonical form has a tree of its nesting. -/
theorem Parses.derives {phrase : Phrase} {p p' : Place} {t : Formula} (h : Parses phrase p t p')
    {opened : List Bool} {c : Cursor} (stands : StandsAt mode answer opened p c) :
    DerivesPhrase mode answer opened phrase c t p' := by
  -- a phrase closes what it opens, so the same parentheses are open behind it
  induction h generalizing opened c with
  | numeral =>
    obtain ⟨next, behind⟩ := stands.next rfl (by simp)
    exact ⟨_, _, .number next, rfl, behind⟩
  | @constant closed k rest =>
    obtain ⟨tree, writes, -, level⟩ := writes_literal (k.value answer)
    obtain ⟨c', derived, behind, after⟩ := writes.derives_group stands.lexemes
    refine ⟨_, c', derived, ?_, behind, after⟩
    rw [Syntax.depth, level]
    rfl
  | name alone =>
    obtain ⟨next, behind⟩ := stands.next rfl (by simp)
    exact ⟨_, _, .constant next (behind.operator?_ne_opening alone), rfl, behind⟩
  | group expression ih =>
    obtain ⟨opening, inside⟩ := stands.opening
    obtain ⟨tree, c', derived, level, ends⟩ := ih inside
    obtain ⟨closing, behind⟩ := ends.closing
    refine ⟨_, _, .group opening derived closing, ?_, behind⟩
    rw [Syntax.depth, level]
    rfl
  | @call closed closed' f t rest rest' arguments ih =>
    have lexemes := stands.lexemes
    rw [canonicalLexemes, SurfaceFunction.openingLexemes, List.append_assoc] at lexemes
    have nonempty : f.stages mode ≠ [] := by
      cases f <;> cases mode <;> exact List.cons_ne_nil _ _
    obtain ⟨tree, c', derived, level, behind, after⟩ :=
      derives_stages nonempty lexemes fun c₁ base plain =>
        f.derives_base base plain fun c₂ inside plain => by
          have argument : StandsAt mode answer (f.isAngular :: opened) ⟨false, rest⟩ c₂ :=
            ⟨inside, plain⟩
          obtain ⟨trees, c₃, derived, level, ends⟩ := ih argument
          have closings := ends.lexemes
          rw [canonicalLexemes, List.headD_cons, List.tail_cons, f.closingLexemes_eq] at closings
          exact ⟨trees, c₃, derived, level, closings⟩
    exact ⟨tree, c', derived, level, behind, after⟩
  | @apply closed closed' w t rest rest' arguments ih =>
    obtain ⟨next, behind⟩ := stands.next rfl (by simp)
    obtain ⟨opening, inside⟩ := behind.opening
    obtain ⟨trees, c', derived, level, ends⟩ := ih inside
    obtain ⟨closing, behind⟩ := ends.closing
    refine ⟨_, _, .call next opening (derived.call closing w), ?_, behind⟩
    rw [Syntax.depth, level]
    rfl
  | lastArgument expression ih =>
    obtain ⟨tree, c', derived, level, ends⟩ := ih stands
    refine ⟨_, c', .last derived, ?_, ends⟩
    rw [Syntax.depthAll, Syntax.depthAll, Nat.max_zero, level]
  | nextArgument expression arguments ih₁ ih₂ =>
    obtain ⟨tree, c₁, derived, level, ends⟩ := ih₁ stands
    obtain ⟨comma, behind⟩ := ends.operator (by decide) (by decide)
    obtain ⟨trees, c', further, levels, ends⟩ := ih₂ behind
    refine ⟨_, c', .next derived comma further, ?_, ends⟩
    rw [Syntax.depthAll, level, levels]
    rfl
  | @signed closed sign t rest p' unary ih =>
    obtain ⟨symbol, behind⟩ := stands.operator (by cases sign <;> decide) (by cases sign <;> decide)
    obtain ⟨tree, c', derived, level, ends⟩ := ih behind
    refine ⟨_, c', .signed symbol derived, ?_, ends⟩
    rw [Syntax.depth, level]
    rfl
  | unsigned primary ih =>
    obtain ⟨tree, c', derived, level, ends⟩ := ih stands
    exact ⟨tree, c', .unsigned derived, level, ends⟩
  | raised unary power ih₁ ih₂ =>
    obtain ⟨base, c₁, derived, level, ends⟩ := ih₁ stands
    obtain ⟨symbol, behind⟩ := ends.operator (by decide) (by decide)
    obtain ⟨exponent, c', further, level', ends⟩ := ih₂ behind
    refine ⟨_, c', .raised derived symbol further, ?_, ends⟩
    rw [Syntax.depth, level, level']
    rfl
  | base unary ih =>
    obtain ⟨tree, c', derived, level, ends⟩ := ih stands
    exact ⟨tree, c', .base derived, level, ends⟩
  | term power factors ih₁ ih₂ =>
    obtain ⟨first, c₁, derived, level, ends⟩ := ih₁ stands
    obtain ⟨tree, c', further, level', ends⟩ := ih₂ ends first level
    exact ⟨tree, c', .term derived further, level', ends⟩
  | @factor closed link operator left right t rest p₁ p' written power factors ih₁ ih₂ =>
    intro before level
    obtain ⟨symbol, behind⟩ := stands.operator (by cases link <;> cases written <;> decide)
      (by cases link <;> cases written <;> decide)
    obtain ⟨tree, c₁, derived, level', ends⟩ := ih₁ behind
    obtain ⟨whole, c', further, level'', ends⟩ := ih₂ ends (.product link before tree) (by
      rw [Syntax.depth, level, level']
      rfl)
    exact ⟨whole, c', .factor written symbol derived further, level'', ends⟩
  | implicitFactor start power factors ih₁ ih₂ =>
    intro before level
    obtain ⟨tree, c₁, derived, level', ends⟩ := ih₁ stands
    obtain ⟨whole, c', further, level'', ends⟩ := ih₂ ends (.product .implicit before tree) (by
      rw [Syntax.depth, level, level']
      rfl)
    exact ⟨whole, c', .implicitFactor (stands.startsAlone start) derived further, level'', ends⟩
  | noFactor => exact fun tree level => ⟨tree, c, .noFactor, level, stands⟩
  | expression term terms ih₁ ih₂ =>
    obtain ⟨first, c₁, derived, level, ends⟩ := ih₁ stands
    obtain ⟨tree, c', further, level', ends⟩ := ih₂ ends first level
    exact ⟨tree, c', .expression derived further, level', ends⟩
  | @furtherTerm closed sign left right t rest p₁ p' term terms ih₁ ih₂ =>
    intro before level
    obtain ⟨symbol, behind⟩ := stands.operator (by cases sign <;> decide) (by cases sign <;> decide)
    obtain ⟨tree, c₁, derived, level', ends⟩ := ih₁ behind
    obtain ⟨whole, c', further, level'', ends⟩ := ih₂ ends (.sum sign before tree) (by
      rw [Syntax.depth, level, level']
      rfl)
    exact ⟨whole, c', .furtherTerm symbol derived further, level'', ends⟩
  | noTerm => exact fun tree level => ⟨tree, c, .noTerm, level, stands⟩

end Places

/-! ## Evaluation -/

section Evaluation

variable {ls : List SurfaceLexeme} {text : List Char} {t : Formula} {closed : Bool}

/-- A formula that is written as an expression is evaluated as a tree of its nesting. -/
theorem Shown.evaluateWith_eq (shown : Shown ls text)
    (formula : Parses .expression ⟨false, ls⟩ t ⟨closed, []⟩) (short : text.length ≤ lengthLimit)
    (registry : Registry) (mode : AngleMode) (answer : Binary64) :
    ∃ tree : Syntax, tree.depth = t.nesting mode answer ∧
      evaluateWith registry text mode answer =
        tree.evaluate registry nestingLimit nestingLimit := by
  have spelled : CanonicallySpells mode answer [] (Calculator.trimBlanks text) _ :=
    shown.trimBlanks.canonicallySpells
  obtain ⟨tokens, lexemes, value⟩ := spelled.evaluateWith_eq short registry
  have stands : StandsAt mode answer [] ⟨false, ls⟩ tokens.start := ⟨lexemes, rfl⟩
  obtain ⟨tree, c', derived, level, ends⟩ := formula.derives stands
  have sentence : tokens.Sentence tree := ⟨c', derived, Cursor.atEnd_of_lexemes ends.lexemes⟩
  exact ⟨tree, level, value.trans (sentence.value_eq registry nestingLimit)⟩

/-- A formula is never refused as too large if its canonical form nests within the limit, and has no
value if that nests deeper, as it does where the formula itself does. So up to a depth of 31 it is
never too large, nor up to a depth of 62 in radians, and a formula with a value in degrees is not
too large in radians. -/
theorem evaluateWith_nesting (shown : Shown ls text)
    (formula : Parses .expression ⟨false, ls⟩ t ⟨closed, []⟩) (short : text.length ≤ lengthLimit)
    (registry : Registry) (answer : Binary64) :
    (∀ mode, t.nesting mode answer ≤ nestingLimit →
      NeverTooLarge (evaluateWith registry text mode answer)) ∧
    (∀ mode, nestingLimit < t.nesting mode answer →
      ∀ x, evaluateWith registry text mode answer ≠ .ok x) ∧
    (∀ mode, t.depth ≤ t.nesting mode answer) ∧
    (∀ mode, t.depth ≤ 31 → NeverTooLarge (evaluateWith registry text mode answer)) ∧
    (t.depth ≤ 62 → NeverTooLarge (evaluateWith registry text .radians answer)) ∧
    ∀ x, evaluateWith registry text .degrees answer = .ok x →
      NeverTooLarge (evaluateWith registry text .radians answer) := by
  have within : ∀ mode, t.nesting mode answer ≤ nestingLimit →
      NeverTooLarge (evaluateWith registry text mode answer) := by
    intro mode fits
    obtain ⟨tree, level, value⟩ := shown.evaluateWith_eq formula short registry mode answer
    rw [value]
    exact Syntax.neverTooLarge_evaluate registry nestingLimit tree (level ▸ fits)
  have valued : ∀ mode x, evaluateWith registry text mode answer = .ok x →
      t.nesting mode answer ≤ nestingLimit := by
    intro mode x read
    obtain ⟨tree, level, value⟩ := shown.evaluateWith_eq formula short registry mode answer
    rw [value, Syntax.evaluate_eq_ok_iff, level] at read
    exact read.2
  refine ⟨within, fun mode deep x read => ?_, fun mode => t.depth_le_nesting mode answer,
    fun mode shallow => within mode ?_, fun shallow => within .radians ?_,
    fun x read => within .radians ?_⟩
  · exact absurd (valued mode x read) (Nat.not_le.2 deep)
  · have double := t.nesting_le_double mode answer
    unfold nestingLimit
    omega
  · have single := t.nesting_radians_le answer
    unfold nestingLimit
    omega
  · exact Nat.le_trans (t.nesting_radians_le_degrees answer) (valued .degrees x read)

end Evaluation

/-- A power of a call of a negated constant, with a factor and a negative last answer. -/
theorem evaluateWith_nesting_power :
    let text := "2sin(-π) ^ans".toList
    let answer := (Binary64.ofNat 1).neg
    ∃ ls t closed, Shown ls text ∧ Parses .expression ⟨false, ls⟩ t ⟨closed, []⟩ ∧
      text.length ≤ lengthLimit ∧ t.depth = 2 ∧ t.nesting .degrees answer = 4 ∧
      ∀ mode, NeverTooLarge (evaluateWith .standard text mode answer) := by
  intro text answer
  let two : Numeral := ⟨[Digit.ofNat 2 (by decide)], none, none, List.cons_ne_nil _ _⟩
  let exponent : List SurfaceLexeme := [.operator .power, .constant .answer]
  let argument : List SurfaceLexeme :=
    .operator Sign.negative.symbol :: .constant .pi :: .operator .closing :: exponent
  have shown : Shown (.numeral two :: .call .sin :: argument) text :=
    .lexeme (.numeral two) (Numeral.stops_cons _ (by decide) (by decide) (by decide))
      (.lexeme (.call .sin) trivial
        (.lexeme (.operator .minus) (fun other => by cases other)
          (.lexeme (.constant .pi) (fun word => by cases word)
            (.lexeme (.operator .closing) (fun other => by cases other)
              (.blank (by decide)
                (.lexeme .power (fun other => by cases other)
                  (.lexeme (.constant .answer) (fun _ => rfl) .nil)))))))
  have negated : Parses .expression ⟨false, argument⟩ (.signed .negative (.constant .pi))
      ⟨true, .operator .closing :: exponent⟩ :=
    .expression (.term (.base (.signed (.unsigned .constant))) .noFactor) .noTerm
  have power : Parses .power ⟨false, .call .sin :: argument⟩ _ ⟨true, []⟩ :=
    .raised (.unsigned (.call (.lastArgument negated))) (.base (.unsigned .constant))
  have first : Parses .power ⟨false, .numeral two :: .call .sin :: argument⟩ (.numeral two) _ :=
    .base (.unsigned .numeral)
  have formula : Parses .expression ⟨false, _⟩ _ ⟨true, []⟩ :=
    .expression (.term first (.implicitFactor rfl power .noFactor)) .noTerm
  have short : text.length ≤ lengthLimit := by decide
  have never := (evaluateWith_nesting shown formula short .standard answer).2.2.2.1
  exact ⟨_, _, _, shown, formula, short, by decide, by decide +kernel,
    fun mode => never mode (by decide)⟩

/-- Sines around a zero, one inside the other. -/
def nestedSines : Nat → List Char → List Char
  | 0, rest => '0' :: rest
  | n + 1, rest => "sin(".toList ++ nestedSines n (')' :: rest)

theorem exists_nestedSines (n : Nat) {ls : List SurfaceLexeme} {text : List Char}
    (h : Shown ls text) (stops : Numeral.Stops text) :
    ∃ ls' t closed, Shown ls' (nestedSines n text) ∧
      Parses .expression ⟨false, ls'⟩ t ⟨closed, ls⟩ ∧ t.depth = n := by
  induction n generalizing ls text with
  | zero =>
    let zero : Numeral := ⟨[Digit.ofNat 0 (by decide)], none, none, List.cons_ne_nil _ _⟩
    exact ⟨_, _, _, .lexeme (.numeral zero) stops h, Parses.expression_of_primary .numeral, rfl⟩
  | succ n ih =>
    have closing : Shown (.operator .closing :: ls) (')' :: text) :=
      .lexeme (.operator .closing) (fun other => by cases other) h
    obtain ⟨ls', t, closed, shown, formula, depth⟩ :=
      ih closing (Numeral.stops_cons _ (by decide) (by decide) (by decide))
    exact ⟨_, _, _, .lexeme (.call .sin) trivial shown,
      Parses.expression_of_primary (.call (.lastArgument formula)), congrArg (· + 1) depth⟩

/-- In degrees 33 sines nest too deep, each being two calls. In radians they have a value. -/
theorem evaluate_nestedSines :
    let text := nestedSines 33 []
    (∃ ls t closed, Shown ls text ∧ Parses .expression ⟨false, ls⟩ t ⟨closed, []⟩ ∧
      t.depth = 33) ∧ text.length ≤ lengthLimit ∧
      evaluate text .radians .zero = .ok .zero ∧
      evaluate text .degrees .zero = .error (.nestedTooDeep nestingLimit) ∧
      (Fault.nestedTooDeep nestingLimit).kind = .tooLarge := by
  refine ⟨exists_nestedSines 33 .nil Numeral.stops_nil, ?_⟩
  decide +kernel

end Calculator
