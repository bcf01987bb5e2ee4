import Calculator.Evaluation
import Calculator.Proofs.Checked.Conversion

/-!
# Checked reading

The same grammar over a table of entries, of which only the kinds and the texts are known. A place is
a position in the table, and every look at the table, at the entry before, at a function or a
constant by name and at a text as a number can fail. Loops have a bound, and exceeding it is a
failure too. Messages are put together from the texts of the entries.
-/
namespace Calculator

/-- Why reading stops: an error that is reported, or a slip. -/
inductive Stop where
  | reported (error : CalculationError)
  | slip (slip : Slip)
  deriving DecidableEq

/-- A fault of an expression, reported. -/
def Fault.report (fault : Fault) : Stop :=
  .reported fault.toError

inductive EntryKind where
  | number | name | operator | finish
  deriving DecidableEq, Repr

structure Entry where
  kind : EntryKind
  text : List Char
  position : Nat
  deriving DecidableEq

def Lexeme.kind : Lexeme → EntryKind
  | .number _ => .number
  | .name _ => .name
  | .operator _ => .operator

namespace Tokens

/-- The table of tokens, with an entry for the end. -/
def entries : Tokens → List Entry
  | .finish position => [⟨.finish, [], position⟩]
  | .token lexeme position rest => ⟨lexeme.kind, lexeme.text, position⟩ :: rest.entries

end Tokens

namespace Checked

/-- A slip stops the reading. -/
def orSlip {α : Type} (step : Except Slip α) : Except Stop α :=
  step.mapError .slip

/-- The functions with more than one argument. -/
def arityOf (name : List Char) : Nat :=
  if name = Primitive.pow.name then 2 else 1

/-- Looks a function up by its name and calls it. -/
def callNamed (name : List Char) (arguments : List Binary64) : Except Slip Binary64 :=
  match Primitive.ofName? name with
  | some p => p.checkedCall arguments
  | none => .error .missingKey

/-- Looks a constant up by its name. -/
def constantNamed (name : List Char) : Except Slip Binary64 :=
  match nonFinite? name with
  | some x => .ok x
  | none => .error .missingKey

section Table

variable (entries : List Entry)

/-- The entry at a position. -/
def look (position : Nat) : Except Stop Entry :=
  match entries[position]? with
  | some entry => .ok entry
  | none => .error (.slip .outOfRange)

/-- The entry before a position. -/
def lookBehind (position : Nat) : Except Stop Entry :=
  match position with
  | 0 => .error (.slip .outOfRange)
  | position + 1 => look entries position

/-- The entry at a position and the position behind it. -/
def pass (position : Nat) : Except Stop (Entry × Nat) := do
  let entry ← look entries position
  .ok (entry, position + 1)

/-- One of the operators stands at a position. -/
def atOperator (position : Nat) (operators : List Operator) : Except Stop Bool := do
  let entry ← look entries position
  .ok (entry.kind = .operator && (operators.map Operator.text).contains entry.text)

/-- Passes over an operator that has to come next. -/
def expect (position : Nat) (operator : Operator) : Except Stop Nat := do
  if ← atOperator entries position [operator] then
    let (_, position) ← pass entries position
    .ok position
  else
    let entry ← look entries position
    .error (.reported ⟨.malformed, "expected ".toList ++ quoted operator.text ++
      ", found ".toList ++ quoted (orElseText entry.text Fault.endName)⟩)

/-- A factor without an operator stands at a position. -/
def startsFactor (position : Nat) : Except Stop Bool := do
  let entry ← look entries position
  if entry.kind = .name ∨ entry.kind = .operator ∧ entry.text = Operator.opening.text then .ok true
  else
    let previous ← lookBehind entries position
    .ok (entry.kind = .number && previous.text = Operator.closing.text)

end Table

/-- The product, quotient or remainder that an operator's text stands for. -/
def multiplicative (operator : List Char) (left right : Binary64) : Except Stop Binary64 :=
  if operator = Operator.times.text then .ok (left * right)
  else if right.isZero then
    .error (.reported ⟨.divisionByZero,
      NumberFormat.message.text left ++ ' ' :: operator ++ " 0".toList⟩)
  else if operator = Operator.divide.text then orSlip (divide left right)
  else orSlip (remainder left right)

/-- The procedures that read nested operands. -/
structure Reader where
  expression : Nat → Except Stop (Binary64 × Nat)
  arguments : Nat → Except Stop (List Binary64 × Nat)
  power : Nat → Except Stop (Binary64 × Nat)
  unary : Nat → Except Stop (Binary64 × Nat)

namespace Reader

/-- The reader below the last level. -/
def refuse (limit : Nat) : Reader where
  expression _ := .error (Fault.nestedTooDeep limit).report
  arguments _ := .error (Fault.nestedTooDeep limit).report
  power _ := .error (Fault.nestedTooDeep limit).report
  unary _ := .error (Fault.nestedTooDeep limit).report

section Level

variable (entries : List Entry) (inner : Reader)

/-- A name that has been passed. -/
def named (name : List Char) (position : Nat) : Except Stop (Binary64 × Nat) :=
  if (Primitive.ofName? name).isSome then do
    if ← atOperator entries position [.opening] then
      let (_, position) ← pass entries position
      let (arguments, position) ← inner.arguments position
      if arguments.length ≠ arityOf name then
        .error (Fault.wrongCount name (arityOf name) arguments.length).report
      else
        let value ← orSlip (callNamed name arguments)
        .ok (value, position)
    else .error (Fault.functionAsValue name).report
  else if (nonFinite? name).isSome then do
    if ← atOperator entries position [.opening] then .error (Fault.notFunction name).report
    else
      let value ← orSlip (constantNamed name)
      .ok (value, position)
  else .error (Fault.unknownName name).report

/-- A numeral, an expression in parentheses or a name. -/
def primary (position : Nat) : Except Stop (Binary64 × Nat) := do
  let (entry, position) ← pass entries position
  if entry.kind = .number then
    let value ← orSlip (readNumber entry.text)
    .ok (value, position)
  else if entry.kind = .operator ∧ entry.text = Operator.opening.text then
    let (value, position) ← inner.expression position
    let position ← expect entries position .closing
    .ok (value, position)
  else if entry.kind = .name then named entries inner entry.text position
  else .error (.reported ⟨.malformed,
    Fault.unexpected (orElseText entry.text Fault.endName) entry.position⟩)

/-- An operand with any number of signs before it. -/
def signed (position : Nat) : Except Stop (Binary64 × Nat) := do
  if ← atOperator entries position [.minus, .plus] then
    let (entry, position) ← pass entries position
    let (value, position) ← inner.unary position
    .ok (if entry.text = Operator.minus.text then value.neg else value, position)
  else primary entries inner position

/-- An operand, which may be raised to a power. -/
def raised (position : Nat) : Except Stop (Binary64 × Nat) := do
  let (base, position) ← signed entries inner position
  if ← atOperator entries position [.power] then
    let (_, position) ← pass entries position
    let (exponent, position) ← inner.power position
    let value ← orSlip (Checked.power base exponent)
    .ok (value, position)
  else .ok (base, position)

/-- The factors that follow `left`. -/
def factors (bound : Nat) (left : Binary64) (position : Nat) : Except Stop (Binary64 × Nat) :=
  match bound with
  | 0 => .error (.slip .endless)
  | bound + 1 => do
    if ← atOperator entries position [.times, .divide, .modulo] then
      let (entry, position) ← pass entries position
      let (right, position) ← raised entries inner position
      let value ← multiplicative entry.text left right
      factors bound value position
    else if ← startsFactor entries position then
      let (right, position) ← raised entries inner position
      factors bound (left * right) position
    else .ok (left, position)

/-- A product of factors, from left to right. -/
def term (position : Nat) : Except Stop (Binary64 × Nat) := do
  let (left, position) ← raised entries inner position
  factors entries inner entries.length left position

/-- The terms that follow `left`. -/
def terms (bound : Nat) (left : Binary64) (position : Nat) : Except Stop (Binary64 × Nat) :=
  match bound with
  | 0 => .error (.slip .endless)
  | bound + 1 => do
    if ← atOperator entries position [.plus, .minus] then
      let (entry, position) ← pass entries position
      let (right, position) ← term entries inner position
      terms bound (if entry.text = Operator.plus.text then left + right else left - right) position
    else .ok (left, position)

/-- A sum of terms, from left to right. -/
def sum (position : Nat) : Except Stop (Binary64 × Nat) := do
  let (left, position) ← term entries inner position
  terms entries inner entries.length left position

/-- The further arguments of a call. -/
def moreArguments (bound : Nat) (position : Nat) : Except Stop (List Binary64 × Nat) :=
  match bound with
  | 0 => .error (.slip .endless)
  | bound + 1 => do
    if ← atOperator entries position [.comma] then
      let (_, position) ← pass entries position
      let (value, position) ← sum entries inner position
      let (values, position) ← moreArguments bound position
      .ok (value :: values, position)
    else .ok ([], position)

/-- The arguments of a call, up to and with its closing parenthesis. -/
def argumentList (position : Nat) : Except Stop (List Binary64 × Nat) := do
  if ← atOperator entries position [.closing] then
    let (_, position) ← pass entries position
    .ok ([], position)
  else
    let (value, position) ← sum entries inner position
    let (values, position) ← moreArguments entries inner entries.length position
    let position ← expect entries position .closing
    .ok (value :: values, position)

/-- The reader of the level around `inner`. -/
def around : Reader where
  expression := sum entries inner
  arguments := argumentList entries inner
  power := raised entries inner
  unary := signed entries inner

end Level

/-- The reader with `depth` more levels before the limit. -/
def nested (entries : List Entry) (limit : Nat) : Nat → Reader
  | 0 => around entries (refuse limit)
  | depth + 1 => around entries (nested entries limit depth)

end Reader

/-- The value of a whole table. -/
def tableValue (entries : List Entry) (limit : Nat) : Except Stop Binary64 := do
  let first ← look entries 0
  if first.kind = .finish then .error Fault.empty.report
  else
    let (value, position) ← (Reader.nested entries limit limit).expression 0
    let entry ← look entries position
    if entry.kind = .finish then .ok value
    else .error (.reported ⟨.malformed, Fault.unexpected entry.text entry.position⟩)

/-- The value of a canonical text. -/
def evaluateCanonical (text : List Char) : Except Stop Binary64 := do
  let tokens ← (Tokens.ofText text).mapError Fault.report
  tableValue tokens.entries nestingLimit

/-- The value of an expression in an angle mode, with a last answer. -/
def evaluate (expression : List Char) (mode : AngleMode) (answer : Binary64) :
    Except Stop Binary64 := do
  let text ← (canonicalize expression mode answer).mapError Fault.report
  evaluateCanonical text

end Checked

end Calculator
