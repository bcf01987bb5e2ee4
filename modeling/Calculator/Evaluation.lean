import Calculator.Canonical
import Calculator.Grammar
import Calculator.Primitive

/-!
# Evaluation of expressions

An expression of the user is brought into canonical form and evaluated over a registry. Its length
and its nesting are limited.
-/
namespace Calculator

/-- The greatest number of characters of an expression. -/
def lengthLimit : Nat := 1000

/-- The greatest number of levels of nesting of a canonical expression. -/
def nestingLimit : Nat := 64

/-- The value of a canonical expression over a registry. -/
def evaluateCanonicalWith (registry : Registry) (text : List Char) : Except Fault Binary64 := do
  let tokens ← Tokens.ofText text
  tokens.value registry nestingLimit

/-- The value of a canonical expression. -/
def evaluateCanonical (text : List Char) : Except Fault Binary64 :=
  evaluateCanonicalWith .standard text

/-- The canonical form of an expression that is not too long. -/
def canonicalize (expression : List Char) (mode : AngleMode) (answer : Binary64) :
    Except Fault (List Char) :=
  if lengthLimit < expression.length then .error (.tooLong lengthLimit)
  else .ok (canonical mode answer expression)

/-- The value of an expression over a registry. -/
def evaluateWith (registry : Registry) (expression : List Char) (mode : AngleMode)
    (answer : Binary64) : Except Fault Binary64 := do
  let text ← canonicalize expression mode answer
  evaluateCanonicalWith registry text

/-- The value of an expression in an angle mode, with a last answer. -/
def evaluate (expression : List Char) (mode : AngleMode) (answer : Binary64) :
    Except Fault Binary64 :=
  evaluateWith .standard expression mode answer

/-- Precedence, implicit factors and signs. -/
example :
    ["1+2*3^2", "2^3^2", "-2^2", "(2)3(4)", "2(3)^2", "7%4%2"].map
      (fun text => (evaluate text.toList .radians .zero).toOption) =
    [19, 512, 4, 24, 18, 1].map (some ∘ .ofNat) := by decide +kernel

/-- The first fault in reading order. -/
example :
    ["1/0)", "(1))/0", "2+", "(1 2", "sin", "NaN(1)", "x", "#"].map (fun text =>
      match evaluate text.toList .radians .zero with
      | .ok _ => none
      | .error fault => some fault) =
    [.zeroDivisor (.ofNat 1) .divide, .unexpectedLexeme (.operator .closing) 3, .unexpectedEnd 2,
      .expected .closing ((Numeral.scan? ['2']).map (.number ·.1)), .functionAsValue "sin".toList,
      .notFunction "NaN".toList, .unknownName ['x'], .unexpectedCharacter '#' 0].map some := by
  decide +kernel

end Calculator
