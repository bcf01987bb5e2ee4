import Calculator.Decimal.Notation
import Calculator.Error
import Calculator.Text.Quoted
import Calculator.Token

/-!
# Faults of an expression

Each way in which an expression can fail to have a value is a fault, with what was found and where.
A fault counts as an error of one kind, and its message is the detail of that error.
-/
namespace Calculator

inductive Fault where
  | tooLong (limit : Nat)
  | nestedTooDeep (limit : Nat)
  | unexpectedCharacter (char : Char) (position : Nat)
  | empty
  | unexpectedLexeme (lexeme : Lexeme) (position : Nat)
  | unexpectedEnd (position : Nat)
  | expected (operator : Operator) (found : Option Lexeme)
  | zeroDivisor (dividend : Binary64) (operator : Operator)
  | functionAsValue (name : List Char)
  | wrongCount (name : List Char) (arity given : Nat)
  | notFunction (name : List Char)
  | unknownName (name : List Char)
  deriving DecidableEq

/-- A natural number in decimal digits. -/
def natText (n : Nat) : List Char :=
  Nat.toDigits 10 n

namespace Fault

def kind : Fault → ErrorKind
  | .tooLong _ => .tooLarge
  | .nestedTooDeep _ => .tooLarge
  | .unexpectedCharacter _ _ => .malformed
  | .empty => .malformed
  | .unexpectedLexeme _ _ => .malformed
  | .unexpectedEnd _ => .malformed
  | .expected _ _ => .malformed
  | .zeroDivisor _ _ => .divisionByZero
  | .functionAsValue _ => .operandType
  | .wrongCount _ _ _ => .operandType
  | .notFunction _ => .operandType
  | .unknownName _ => .unknownIdentifier

/-- What messages call the end of an expression. -/
def endName : List Char := "end of expression".toList

/-- A quoted text that was met at a position. -/
def unexpected (found : List Char) (position : Nat) : List Char :=
  "unexpected ".toList ++ quoted found ++ " at ".toList ++ natText position

def message : Fault → List Char
  | .tooLong limit =>
    "expression longer than ".toList ++ natText limit ++ " characters".toList
  | .nestedTooDeep limit => "nesting deeper than ".toList ++ natText limit
  | .unexpectedCharacter char position =>
    "unexpected character ".toList ++ quoted [char] ++ " at ".toList ++ natText position
  | .empty => "empty expression".toList
  | .unexpectedLexeme lexeme position => unexpected lexeme.text position
  | .unexpectedEnd position => unexpected endName position
  | .expected operator found =>
    "expected ".toList ++ quoted operator.text ++ ", found ".toList ++
      quoted ((found.map Lexeme.text).getD endName)
  | .zeroDivisor dividend operator =>
    NumberFormat.message.text dividend ++ ' ' :: operator.text ++ " 0".toList
  | .functionAsValue name => name ++ " is a function, not a value".toList
  | .wrongCount name arity given =>
    name ++ " takes ".toList ++ natText arity ++ " argument(s), got ".toList ++ natText given
  | .notFunction name => name ++ " is not a function".toList
  | .unknownName name => name ++ " is not defined".toList

/-- The error that a fault is reported as. -/
def toError (f : Fault) : CalculationError :=
  ⟨f.kind, f.message⟩

end Fault

end Calculator
