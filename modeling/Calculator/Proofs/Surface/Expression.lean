import Calculator.Canonical
import Calculator.Elementary.Power
import Calculator.Proofs.Number.Written
import Calculator.Proofs.Token.Spelling

/-!
# Surface expressions

A surface expression is what a user means to write: numerals, constants, the last answer, signs,
operators and calls of surface functions. Its value is computed from left to right, and only a zero
divisor stops that. Its text has every operand of an operator in parentheses.
-/
namespace Calculator

/-- An operator between two operands, as the user writes it. -/
inductive SurfaceOperator where
  | plus | minus | times | divide | modulo | power
  deriving DecidableEq, Repr

namespace SurfaceOperator

def char : SurfaceOperator → Char
  | .plus => '+'
  | .minus => '-'
  | .times => '*'
  | .divide => '/'
  | .modulo => '%'
  | .power => '^'

/-- The operator that a canonical expression has instead. -/
def canonical : SurfaceOperator → Operator
  | .plus => .plus
  | .minus => .minus
  | .times => .times
  | .divide => .divide
  | .modulo => .modulo
  | .power => .power

/-- The value at two operands; a zero divisor is a fault. -/
def apply (o : SurfaceOperator) (x y : Binary64) : Except Fault Binary64 :=
  match o with
  | .plus => .ok (x + y)
  | .minus => .ok (x - y)
  | .times => .ok (x * y)
  | .divide => if y.isZero then .error (.zeroDivisor x .divide) else .ok (x / y)
  | .modulo => if y.isZero then .error (.zeroDivisor x .modulo) else .ok (x % y)
  | .power => .ok (x.power y)

end SurfaceOperator

inductive Surface where
  | numeral (n : Numeral)
  | pi
  | euler
  | answer
  | signed (sign : Sign) (operand : Surface)
  | binary (operator : SurfaceOperator) (left right : Surface)
  | call (function : SurfaceFunction) (argument : Surface)

namespace Surface

/-- The text of an expression, with operands in parentheses. -/
def text : Surface → List Char
  | .numeral n => n.text
  | .pi => ['π']
  | .euler => ['e']
  | .answer => ['a', 'n', 's']
  | .signed sign t => sign.char :: parenthesized t.text
  | .binary o left right => parenthesized left.text ++ o.char :: parenthesized right.text
  | .call f t => f.name ++ parenthesized t.text

/-- The value of an expression from left to right, or the first zero divisor. -/
def value (mode : AngleMode) (answer : Binary64) : Surface → Except Fault Binary64
  | .numeral n => .ok n.value
  | .pi => .ok .pi
  | .euler => .ok .euler
  | .answer => .ok answer
  | .signed .positive t => t.value mode answer
  | .signed .negative t => do
    let x ← t.value mode answer
    .ok x.neg
  | .binary o left right => do
    let x ← left.value mode answer
    let y ← right.value mode answer
    o.apply x y
  | .call f t => do
    let x ← t.value mode answer
    .ok (f.apply mode x)

/-- Nothing but a zero divisor is met. -/
theorem value_fault (mode : AngleMode) (answer : Binary64) (t : Surface) {fault : Fault}
    (h : t.value mode answer = .error fault) : ∃ x o, fault = .zeroDivisor x o := by
  induction t generalizing fault with
  | numeral n => cases h
  | pi => cases h
  | euler => cases h
  | answer => cases h
  | signed sign t ih =>
    cases sign with
    | positive => exact ih h
    | negative =>
      rcases bind_failure h with inner | ⟨x, -, met⟩
      · exact ih inner
      · cases met
  | binary o left right ih₁ ih₂ =>
    rcases bind_failure h with first | ⟨x, -, h⟩
    · exact ih₁ first
    · rcases bind_failure h with second | ⟨y, -, met⟩
      · exact ih₂ second
      · cases o <;> simp only [SurfaceOperator.apply] at met
        case divide | modulo =>
          split at met <;> cases met
          exact ⟨_, _, rfl⟩
        all_goals cases met
  | call f t ih =>
    rcases bind_failure h with inner | ⟨x, -, met⟩
    · exact ih inner
    · cases met

/-- The text of an expression has no blanks. -/
theorem isBlank_text (t : Surface) : ∀ c ∈ t.text, isBlank c = false := by
  have around : ∀ {w : List Char}, (∀ c ∈ w, isBlank c = false) →
      ∀ c ∈ parenthesized w, isBlank c = false := by
    intro w inside c member
    simp only [parenthesized, List.cons_append, List.mem_cons, List.mem_append,
      List.not_mem_nil, or_false] at member
    rcases member with rfl | member | rfl
    · decide
    · exact inside c member
    · decide
  induction t with
  | numeral n => exact Numeral.forall_mem_text Digit.isBlank_char (forall_mem_of_all (by decide)) n
  | pi => exact forall_mem_of_all (by decide)
  | euler => exact forall_mem_of_all (by decide)
  | answer => exact forall_mem_of_all (by decide)
  | signed sign t ih =>
    intro c member
    rw [text, List.mem_cons] at member
    rcases member with rfl | member
    · cases sign <;> decide
    · exact around ih c member
  | binary o left right ih₁ ih₂ =>
    intro c member
    rw [text, List.mem_append, List.mem_cons] at member
    rcases member with member | rfl | member
    · exact around ih₁ c member
    · cases o <;> decide
    · exact around ih₂ c member
  | call f t ih =>
    intro c member
    rw [text, List.mem_append] at member
    rcases member with member | member
    · revert c
      cases f <;> exact forall_mem_of_all (by decide)
    · exact around ih c member

end Surface

end Calculator
