import Calculator.Elementary.Power
import Calculator.Fault
import Calculator.Function

/-!
# Evaluation by the grammar

Sums of products of powers of signed operands, from the loosest to the tightest, are evaluated while
they are read, so the first fault in reading order is the one reported. A factor may follow without
an operator where a name or a parenthesis starts it, or where a number stands right after a closing
parenthesis. Exponents, signed operands, parenthesised expressions and arguments nest, and each
level of nesting is built on the next one; below the last level everything is refused.
-/
namespace Calculator

/-- The tokens to be read, and whether the token before them closed a parenthesis. -/
structure Cursor where
  afterClosing : Bool
  rest : Tokens

namespace Cursor

/-- The cursor after one more token, if there is one. -/
def advance (c : Cursor) : Cursor :=
  match c.rest with
  | .finish _ => c
  | .token lexeme _ rest => ⟨lexeme = .operator .closing, rest⟩

/-- The lexeme that comes next. -/
def next? (c : Cursor) : Option Lexeme :=
  match c.rest with
  | .finish _ => none
  | .token lexeme _ _ => some lexeme

/-- The operator that comes next. -/
def operator? (c : Cursor) : Option Operator :=
  match c.next? with
  | some (.operator operator) => some operator
  | _ => none

/-- Passes over an operator that has to come next. -/
def expect (c : Cursor) (operator : Operator) : Except Fault Cursor :=
  if c.operator? = some operator then .ok c.advance else .error (.expected operator c.next?)

/-- A factor without an operator comes next. -/
def startsFactor (c : Cursor) : Bool :=
  match c.next? with
  | some (.name _) => true
  | some (.operator .opening) => true
  | some (.number _) => c.afterClosing
  | _ => false

end Cursor

/-- The rules of the grammar that nested operands are read by. -/
structure Rules where
  expression : Cursor → Except Fault (Binary64 × Cursor)
  arguments : Cursor → Except Fault (List Binary64 × Cursor)
  power : Cursor → Except Fault (Binary64 × Cursor)
  unary : Cursor → Except Fault (Binary64 × Cursor)

namespace Rules

/-- The rules below the last level, which refuse whatever nests deeper than `limit`. -/
def refuse (limit : Nat) : Rules where
  expression _ := .error (.nestedTooDeep limit)
  arguments _ := .error (.nestedTooDeep limit)
  power _ := .error (.nestedTooDeep limit)
  unary _ := .error (.nestedTooDeep limit)

section Level

variable (registry : Registry) (inner : Rules)

/-- A name that has been passed: a call with its arguments, or a constant. -/
def named (name : List Char) (c : Cursor) : Except Fault (Binary64 × Cursor) :=
  match registry.function? name with
  | some function =>
    if c.operator? = some .opening then do
      let (arguments, c) ← inner.arguments c.advance
      match function.valueAt? arguments with
      | some value => .ok (value, c)
      | none => .error (.wrongCount name function.arity arguments.length)
    else .error (.functionAsValue name)
  | none =>
    match registry.constant? name with
    | some value =>
      if c.operator? = some .opening then .error (.notFunction name) else .ok (value, c)
    | none => .error (.unknownName name)

/-- A numeral, an expression in parentheses, a call or a constant. -/
def primary (c : Cursor) : Except Fault (Binary64 × Cursor) :=
  match c.rest with
  | .finish position => .error (.unexpectedEnd position)
  | .token lexeme position _ =>
    match lexeme with
    | .number numeral => .ok (numeral.value, c.advance)
    | .name name => named registry inner name c.advance
    | .operator .opening => do
      let (value, c) ← inner.expression c.advance
      let c ← c.expect .closing
      .ok (value, c)
    | .operator _ => .error (.unexpectedLexeme lexeme position)

/-- An operand with any number of signs before it. -/
def signed (c : Cursor) : Except Fault (Binary64 × Cursor) :=
  match c.operator? with
  | some .minus => do
    let (value, c) ← inner.unary c.advance
    .ok (value.neg, c)
  | some .plus => inner.unary c.advance
  | _ => primary registry inner c

/-- An operand, which may be raised to a power. -/
def raised (c : Cursor) : Except Fault (Binary64 × Cursor) := do
  let (base, c) ← signed registry inner c
  if c.operator? = some .power then
    let (exponent, c) ← inner.power c.advance
    .ok (base.power exponent, c)
  else .ok (base, c)

/-- The value of a product, a quotient or a remainder; a zero divisor is a fault. -/
def multiplicative (operator : Operator) (left right : Binary64) : Except Fault Binary64 :=
  match operator with
  | .divide => if right.isZero then .error (.zeroDivisor left .divide) else .ok (left / right)
  | .modulo => if right.isZero then .error (.zeroDivisor left .modulo) else .ok (left % right)
  | _ => .ok (left * right)

/-- The operators between factors. -/
def isMultiplicative : Operator → Bool
  | .times | .divide | .modulo => true
  | _ => false

/-- The operators between terms. -/
def isAdditive : Operator → Bool
  | .plus | .minus => true
  | _ => false

/-- The factors that follow `left`, of which there are at most `bound`. -/
def factors (bound : Nat) (left : Binary64) (c : Cursor) : Except Fault (Binary64 × Cursor) :=
  match bound with
  | 0 => .ok (left, c)
  | bound + 1 =>
    match c.operator?.filter isMultiplicative with
    | some operator => do
      let (right, c) ← raised registry inner c.advance
      let value ← multiplicative operator left right
      factors bound value c
    | none =>
      if c.startsFactor then do
        let (right, c) ← raised registry inner c
        factors bound (left * right) c
      else .ok (left, c)

/-- A product of factors, from left to right. -/
def term (c : Cursor) : Except Fault (Binary64 × Cursor) := do
  let (left, c) ← raised registry inner c
  factors registry inner c.rest.length left c

/-- The terms that follow `left`, of which there are at most `bound`. -/
def terms (bound : Nat) (left : Binary64) (c : Cursor) : Except Fault (Binary64 × Cursor) :=
  match bound with
  | 0 => .ok (left, c)
  | bound + 1 =>
    match c.operator?.filter isAdditive with
    | some operator => do
      let (right, c) ← term registry inner c.advance
      terms bound (if operator = .minus then left - right else left + right) c
    | none => .ok (left, c)

/-- A sum of terms, from left to right. -/
def sum (c : Cursor) : Except Fault (Binary64 × Cursor) := do
  let (left, c) ← term registry inner c
  terms registry inner c.rest.length left c

/-- The further arguments of a call, of which there are at most `bound`. -/
def moreArguments (bound : Nat) (c : Cursor) : Except Fault (List Binary64 × Cursor) :=
  match bound with
  | 0 => .ok ([], c)
  | bound + 1 =>
    if c.operator? = some .comma then do
      let (value, c) ← sum registry inner c.advance
      let (values, c) ← moreArguments bound c
      .ok (value :: values, c)
    else .ok ([], c)

/-- The arguments of a call, up to and with its closing parenthesis. -/
def argumentList (c : Cursor) : Except Fault (List Binary64 × Cursor) :=
  if c.operator? = some .closing then .ok ([], c.advance)
  else do
    let (value, c) ← sum registry inner c
    let (values, c) ← moreArguments registry inner c.rest.length c
    let c ← c.expect .closing
    .ok (value :: values, c)

/-- The rules of the level around `inner`. -/
def around : Rules where
  expression := sum registry inner
  arguments := argumentList registry inner
  power := raised registry inner
  unary := signed registry inner

end Level

/-- The rules with `depth` more levels before the limit. -/
def nested (registry : Registry) (limit : Nat) : Nat → Rules
  | 0 => around registry (refuse limit)
  | depth + 1 => around registry (nested registry limit depth)

end Rules

/-- The value of a whole expression that nests at most `limit` deep. -/
def Tokens.value (registry : Registry) (limit : Nat) (tokens : Tokens) : Except Fault Binary64 :=
  match tokens with
  | .finish _ => .error .empty
  | tokens => do
    let (value, c) ← (Rules.nested registry limit limit).expression ⟨false, tokens⟩
    match c.rest with
    | .finish _ => .ok value
    | .token lexeme position _ => .error (.unexpectedLexeme lexeme position)

end Calculator
