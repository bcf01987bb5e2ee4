import Calculator.Numeral

/-!
# Tokens

An expression is a sequence of numerals, names and operators, each with the position of its first
character. The sequence ends in a mark at the position after the last character, so that there is
always something to look at.
-/
namespace Calculator

inductive Operator where
  | plus | minus | times | divide | modulo | power | opening | closing | comma
  deriving DecidableEq, Repr

def Operator.text : Operator → List Char
  | .plus => ['+']
  | .minus => ['-']
  | .times => ['*']
  | .divide => ['/']
  | .modulo => ['%']
  | .power => ['*', '*']
  | .opening => ['(']
  | .closing => [')']
  | .comma => [',']

inductive Lexeme where
  | number (numeral : Numeral)
  | name (text : List Char)
  | operator (sign : Operator)
  deriving DecidableEq

def Lexeme.text : Lexeme → List Char
  | .number numeral => numeral.text
  | .name text => text
  | .operator sign => sign.text

/-- Lexemes with their positions, and the position at which the expression ends. -/
inductive Tokens where
  | finish (position : Nat)
  | token (lexeme : Lexeme) (position : Nat) (rest : Tokens)
  deriving DecidableEq

namespace Tokens

/-- The number of lexemes. -/
def length : Tokens → Nat
  | .finish _ => 0
  | .token _ _ rest => rest.length + 1

/-- The lexemes with their positions. -/
def toList : Tokens → List (Lexeme × Nat)
  | .finish _ => []
  | .token lexeme position rest => (lexeme, position) :: rest.toList

/-- The position at which the expression ends. -/
def finishPosition : Tokens → Nat
  | .finish position => position
  | .token _ _ rest => rest.finishPosition

end Tokens

end Calculator
