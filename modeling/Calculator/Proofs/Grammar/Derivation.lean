import Calculator.Proofs.Grammar.Syntax

/-!
# Derivations

The grammar, as a relation between a place in a sequence of tokens, a tree, and the place behind
the tokens that the tree is written with:

* expression: a term and any number of terms, each after a plus or a minus;
* term: a power and any number of powers, each after a sign of multiplication, division or
  remainder, or without a sign where a factor may start by itself;
* power: a unary operand, or one raised to a power;
* unary: a primary, or a sign before a unary operand;
* primary: a number, an expression in parentheses, a call, or a name that no parenthesis follows.

Products and sums grow to the left and exponents to the right. A derivation may stop anywhere; that
a sentence is derived as a whole is said by the place it ends at.
-/
namespace Calculator

namespace Cursor

/-- A factor may start here without an operator: with a name, with a parenthesis, or with a number
directly behind a closing parenthesis. -/
inductive StartsAlone (c : Cursor) : Prop
  | name {name : List Char} (h : c.next? = some (.name name))
  | opening (h : c.operator? = some .opening)
  | number {numeral : Numeral} (h : c.next? = some (.number numeral)) (behind : c.afterClosing)

/-- All tokens have been passed. -/
def AtEnd (c : Cursor) : Prop :=
  c.next? = none

theorem next?_of_operator? {c : Cursor} {operator : Operator} (h : c.operator? = some operator) :
    c.next? = some (.operator operator) := by
  unfold operator? at h
  split at h
  · rename_i found
    cases h
    exact found
  · cases h

theorem operator?_of_next? {c : Cursor} {operator : Operator}
    (h : c.next? = some (.operator operator)) : c.operator? = some operator := by
  simp [operator?, h]

theorem operator?_of_next?_number {c : Cursor} {numeral : Numeral}
    (h : c.next? = some (.number numeral)) : c.operator? = none := by
  simp [operator?, h]

theorem operator?_of_next?_name {c : Cursor} {name : List Char} (h : c.next? = some (.name name)) :
    c.operator? = none := by
  simp [operator?, h]

theorem operator?_of_next?_none {c : Cursor} (h : c.next? = none) : c.operator? = none := by
  simp [operator?, h]

theorem rest_of_next? {c : Cursor} {lexeme : Lexeme} (h : c.next? = some lexeme) :
    ∃ position, c.rest = .token lexeme position c.advance.rest := by
  unfold next? at h
  split at h
  · cases h
  · rename_i lexeme' position rest found
    cases h
    exact ⟨position, by simp [advance, found]⟩

/-- Passing a token leaves one token less. -/
theorem length_advance {c : Cursor} {lexeme : Lexeme} (h : c.next? = some lexeme) :
    c.advance.rest.length + 1 = c.rest.length := by
  obtain ⟨position, found⟩ := rest_of_next? h
  rw [found, Tokens.length]

/-- Whether a parenthesis has been closed is seen from the token passed last. -/
theorem afterClosing_advance {c : Cursor} {lexeme : Lexeme} (h : c.next? = some lexeme) :
    c.advance.afterClosing = decide (lexeme = .operator .closing) := by
  obtain ⟨position, found⟩ := rest_of_next? h
  rw [advance, found]

/-- Where a factor may start there is a token. -/
theorem StartsAlone.next? {c : Cursor} (h : c.StartsAlone) :
    ∃ lexeme, c.next? = some lexeme := by
  rcases h with h | h | ⟨h, -⟩
  · exact ⟨_, h⟩
  · exact ⟨_, next?_of_operator? h⟩
  · exact ⟨_, h⟩

theorem startsFactor_iff (c : Cursor) : c.startsFactor = true ↔ c.StartsAlone := by
  unfold startsFactor
  constructor
  · intro h
    split at h
    · rename_i found
      exact .name found
    · rename_i found
      exact .opening (operator?_of_next? found)
    · rename_i found
      exact .number found h
    · cases h
  · rintro (h | h | ⟨h, behind⟩)
    · simp [h]
    · simp [next?_of_operator? h]
    · simp [h, behind]

end Cursor

/-- What a part of a sentence is. Factors and terms go on from what stands to their left, and
arguments from the name that is called and the arguments before them. -/
inductive Category where
  | primary | unary | power | term | expression
  | factors (left : Syntax)
  | terms (left : Syntax)
  | arguments (name : List Char)
  | moreArguments (name : List Char) (given : List Syntax)

/-- A tree of a category is written between two places. -/
inductive Derives : Category → Cursor → Syntax → Cursor → Prop
  | number {c : Cursor} {numeral : Numeral} (next : c.next? = some (.number numeral)) :
      Derives .primary c (.number numeral) c.advance
  | constant {c : Cursor} {name : List Char} (next : c.next? = some (.name name))
      (alone : c.advance.operator? ≠ some .opening) :
      Derives .primary c (.constant name) c.advance
  | group {c c' : Cursor} {inner : Syntax} (opening : c.operator? = some .opening)
      (expression : Derives .expression c.advance inner c')
      (closing : c'.operator? = some .closing) :
      Derives .primary c (.group inner) c'.advance
  | call {c c' : Cursor} {name : List Char} {t : Syntax} (next : c.next? = some (.name name))
      (opening : c.advance.operator? = some .opening)
      (arguments : Derives (.arguments name) c.advance.advance t c') :
      Derives .primary c t c'
  | noArguments {c : Cursor} {name : List Char} (closing : c.operator? = some .closing) :
      Derives (.arguments name) c (.call name []) c.advance
  | firstArgument {c c₁ c' : Cursor} {name : List Char} {first t : Syntax}
      (expression : Derives .expression c first c₁)
      (more : Derives (.moreArguments name [first]) c₁ t c') :
      Derives (.arguments name) c t c'
  | nextArgument {c c₁ c' : Cursor} {name : List Char} {given : List Syntax} {next t : Syntax}
      (comma : c.operator? = some .comma) (expression : Derives .expression c.advance next c₁)
      (more : Derives (.moreArguments name (given ++ [next])) c₁ t c') :
      Derives (.moreArguments name given) c t c'
  | lastArgument {c : Cursor} {name : List Char} {given : List Syntax}
      (closing : c.operator? = some .closing) :
      Derives (.moreArguments name given) c (.call name given) c.advance
  | signed {c c' : Cursor} {sign : Sign} {operand : Syntax}
      (symbol : c.operator? = some sign.symbol)
      (unary : Derives .unary c.advance operand c') :
      Derives .unary c (.signed sign operand) c'
  | unsigned {c c' : Cursor} {t : Syntax} (primary : Derives .primary c t c') :
      Derives .unary c t c'
  | raised {c c₁ c' : Cursor} {base exponent : Syntax} (unary : Derives .unary c base c₁)
      (symbol : c₁.operator? = some .power)
      (power : Derives .power c₁.advance exponent c') :
      Derives .power c (.power base exponent) c'
  | base {c c' : Cursor} {t : Syntax} (unary : Derives .unary c t c') : Derives .power c t c'
  | term {c c₁ c' : Cursor} {first t : Syntax} (power : Derives .power c first c₁)
      (factors : Derives (.factors first) c₁ t c') :
      Derives .term c t c'
  | factor {c c₁ c' : Cursor} {left right t : Syntax} {link : Link} {operator : Operator}
      (written : link.symbol? = some operator) (symbol : c.operator? = some operator)
      (power : Derives .power c.advance right c₁)
      (factors : Derives (.factors (.product link left right)) c₁ t c') :
      Derives (.factors left) c t c'
  | implicitFactor {c c₁ c' : Cursor} {left right t : Syntax} (start : c.StartsAlone)
      (power : Derives .power c right c₁)
      (factors : Derives (.factors (.product .implicit left right)) c₁ t c') :
      Derives (.factors left) c t c'
  | noFactor {c : Cursor} {left : Syntax} : Derives (.factors left) c left c
  | expression {c c₁ c' : Cursor} {first t : Syntax} (term : Derives .term c first c₁)
      (terms : Derives (.terms first) c₁ t c') :
      Derives .expression c t c'
  | furtherTerm {c c₁ c' : Cursor} {sign : Sign} {left right t : Syntax}
      (symbol : c.operator? = some sign.symbol) (term : Derives .term c.advance right c₁)
      (terms : Derives (.terms (.sum sign left right)) c₁ t c') :
      Derives (.terms left) c t c'
  | noTerm {c : Cursor} {left : Syntax} : Derives (.terms left) c left c

namespace Category

/-- The least number of tokens in a part of this category. -/
def least : Category → Nat
  | .factors _ | .terms _ => 0
  | _ => 1

end Category

/-- A part of a sentence takes tokens away from the rest. -/
theorem Derives.length_le {category : Category} {c c' : Cursor} {t : Syntax}
    (h : Derives category c t c') : c'.rest.length + category.least ≤ c.rest.length := by
  induction h with
  | number next => exact Nat.le_of_eq (Cursor.length_advance next)
  | constant next alone => exact Nat.le_of_eq (Cursor.length_advance next)
  | group opening expression closing ih =>
    have first := Cursor.length_advance (Cursor.next?_of_operator? opening)
    have last := Cursor.length_advance (Cursor.next?_of_operator? closing)
    simp only [Category.least] at *
    omega
  | call next opening arguments ih =>
    have first := Cursor.length_advance next
    have second := Cursor.length_advance (Cursor.next?_of_operator? opening)
    simp only [Category.least] at *
    omega
  | noArguments closing =>
    exact Nat.le_of_eq (Cursor.length_advance (Cursor.next?_of_operator? closing))
  | lastArgument closing =>
    exact Nat.le_of_eq (Cursor.length_advance (Cursor.next?_of_operator? closing))
  | nextArgument comma expression more ih₁ ih₂ =>
    have first := Cursor.length_advance (Cursor.next?_of_operator? comma)
    simp only [Category.least] at *
    omega
  | signed symbol unary ih =>
    have first := Cursor.length_advance (Cursor.next?_of_operator? symbol)
    simp only [Category.least] at *
    omega
  | raised unary symbol power ih₁ ih₂ =>
    have first := Cursor.length_advance (Cursor.next?_of_operator? symbol)
    simp only [Category.least] at *
    omega
  | factor written symbol power factors ih₁ ih₂ =>
    have first := Cursor.length_advance (Cursor.next?_of_operator? symbol)
    simp only [Category.least] at *
    omega
  | furtherTerm symbol term terms ih₁ ih₂ =>
    have first := Cursor.length_advance (Cursor.next?_of_operator? symbol)
    simp only [Category.least] at *
    omega
  | unsigned primary ih => exact ih
  | base unary ih => exact ih
  | noFactor => exact Nat.le_refl _
  | noTerm => exact Nat.le_refl _
  | firstArgument expression more ih₁ ih₂ =>
    simp only [Category.least] at *
    omega
  | term power factors ih₁ ih₂ =>
    simp only [Category.least] at *
    omega
  | implicitFactor start power factors ih₁ ih₂ =>
    simp only [Category.least] at *
    omega
  | expression term terms ih₁ ih₂ =>
    simp only [Category.least] at *
    omega

/-! ## Lists of arguments -/

/-- These expressions are written between two places, with commas between them. -/
inductive DerivesAll : Cursor → List Syntax → Cursor → Prop
  | last {c c' : Cursor} {t : Syntax} (expression : Derives .expression c t c') :
      DerivesAll c [t] c'
  | next {c c₁ c' : Cursor} {t : Syntax} {ts : List Syntax}
      (expression : Derives .expression c t c₁) (comma : c₁.operator? = some .comma)
      (further : DerivesAll c₁.advance ts c') : DerivesAll c (t :: ts) c'

namespace DerivesAll

variable {c c' : Cursor} {ts : List Syntax}

theorem more (h : DerivesAll c ts c') (closing : c'.operator? = some .closing) (name : List Char)
    {before : Cursor} (comma : before.operator? = some .comma) (behind : c = before.advance)
    (given : List Syntax) :
    Derives (.moreArguments name given) before (.call name (given ++ ts)) c'.advance := by
  induction h generalizing before given with
  | last expression =>
    subst behind
    exact .nextArgument comma expression (.lastArgument closing)
  | @next c c₁ c' t ts expression comma' further ih =>
    subst behind
    have tail := ih closing comma' rfl (given ++ [t])
    rw [List.append_assoc] at tail
    exact .nextArgument comma expression tail

/-- In parentheses behind a name they are the arguments of its call. -/
theorem call (h : DerivesAll c ts c') (closing : c'.operator? = some .closing)
    (name : List Char) : Derives (.arguments name) c (.call name ts) c'.advance := by
  cases h with
  | last expression => exact .firstArgument expression (.lastArgument closing)
  | next expression comma further =>
    exact .firstArgument expression (further.more closing name comma rfl [_])

end DerivesAll

end Calculator
