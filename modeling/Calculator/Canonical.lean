import Calculator.Decimal.Notation
import Calculator.SurfaceFunction
import Calculator.Text.Blank
import Calculator.Token.Lexer

/-!
# The canonical form of an expression

What the user writes becomes an expression over the primitives in two passes. The first replaces the
constants and the last answer by numbers in parentheses, and the power sign by its two-character
form. The second replaces the opening of each call of a surface function by that of the primitives
it stands for, and closes after the call what the opening has opened in addition.
A name counts only where no letter or underscore stands before it.
-/
namespace Calculator

/-- A number as the evaluator reads it back, in parentheses. -/
def enclosedLiteral (x : Binary64) : List Char :=
  '(' :: NumberFormat.literal.text x ++ [')']

/-- No letter or underscore stands here. -/
def isBoundary (neighbour : Option Char) : Bool :=
  !neighbour.any isNameStart

/-- The word stands at the start of the text, after a boundary and before another. -/
def standsAlone (word : List Char) (before : Option Char) (text : List Char) : Bool :=
  isBoundary before && word.isPrefixOf text && isBoundary (text.drop word.length).head?

/-- The text with constants, last answer and power signs replaced, after `skip` more characters of
the name replaced last. -/
def substitute (answer : Binary64) (skip : Nat) (before : Option Char) :
    List Char → List Char
  | [] => []
  | c :: rest =>
    match skip with
    | skip + 1 => substitute answer skip (some c) rest
    | 0 =>
      if c = 'π' then enclosedLiteral .pi ++ substitute answer 0 (some c) rest
      else if c = '^' then '*' :: '*' :: substitute answer 0 (some c) rest
      else if standsAlone ['e'] before (c :: rest) then
        enclosedLiteral .euler ++ substitute answer 0 (some c) rest
      else if standsAlone ['a', 'n', 's'] before (c :: rest) then
        enclosedLiteral answer ++ substitute answer 2 (some c) rest
      else c :: substitute answer 0 (some c) rest

namespace SurfaceFunction

/-- What the opening of a call becomes. -/
def opening (mode : AngleMode) (f : SurfaceFunction) : List Char :=
  match mode, f with
  | .degrees, .sin => "sin(radians(".toList
  | .degrees, .cos => "cos(radians(".toList
  | .degrees, .tan => "tan(radians(".toList
  | .degrees, .arcsin => "degrees(asin(".toList
  | .degrees, .arccos => "degrees(acos(".toList
  | .degrees, .arctan => "degrees(atan(".toList
  | .radians, .sin => "sin(".toList
  | .radians, .cos => "cos(".toList
  | .radians, .tan => "tan(".toList
  | .radians, .arcsin => "asin(".toList
  | .radians, .arccos => "acos(".toList
  | .radians, .arctan => "atan(".toList
  | _, .log => "log10(".toList
  | _, .ln => "log(".toList
  | _, .sqrt => "sqrt(".toList
  | _, .pow10 => "pow(10, ".toList
  | _, .powE => "pow(".toList ++ enclosedLiteral .euler ++ ", ".toList

/-- The call takes an angle or gives one. -/
def isAngular : SurfaceFunction → Bool
  | .sin | .cos | .tan | .arcsin | .arccos | .arctan => true
  | _ => false

/-- What a call's closing parenthesis is followed by. -/
def closing (mode : AngleMode) (f : SurfaceFunction) : List Char :=
  if mode = .degrees ∧ f.isAngular then [')'] else []

/-- The function whose call starts the text, after a boundary. -/
def callAt? (before : Option Char) (text : List Char) : Option SurfaceFunction :=
  if isBoundary before then all.find? fun f => (f.name ++ ['(']).isPrefixOf text else none

end SurfaceFunction

/-- The offset of the parenthesis that closes the outermost of `depth` open ones, if it does not
stay open. -/
def closingOffset? (depth : Nat) : List Char → Option Nat
  | [] => none
  | c :: rest =>
    if c = '(' then (closingOffset? (depth + 1) rest).map (· + 1)
    else if c = ')' then
      if depth ≤ 1 then some 0 else (closingOffset? (depth - 1) rest).map (· + 1)
    else (closingOffset? depth rest).map (· + 1)

/-- The text after an open parenthesis with `inserted` behind the parenthesis that closes it;
without change if it stays open. -/
def insertAfterClosing (inserted text : List Char) : List Char :=
  match closingOffset? 1 text with
  | none => text
  | some offset => text.take (offset + 1) ++ inserted ++ text.drop (offset + 1)

/-- The text with the calls of surface functions expanded, after `skip` more characters of the
opening expanded last. -/
def expandCalls (mode : AngleMode) (skip : Nat) (before : Option Char) :
    List Char → List Char
  | [] => []
  | c :: rest =>
    match skip with
    | skip + 1 => expandCalls mode skip (some c) rest
    | 0 =>
      match SurfaceFunction.callAt? before (c :: rest) with
      | some f =>
        f.opening mode ++
          insertAfterClosing (f.closing mode) (expandCalls mode f.name.length (some c) rest)
      | none => c :: expandCalls mode 0 (some c) rest

/-- The canonical form of an expression, for an angle mode and a last answer. -/
def canonical (mode : AngleMode) (answer : Binary64) (expression : List Char) : List Char :=
  expandCalls mode 0 none (substitute answer 0 none (trimBlanks expression))

/-- Calls nest, and a call that stays open gets no further parenthesis. -/
example :
    canonical .degrees .zero "sin(arccos(1))+tan(2".toList =
      "sin(radians(degrees(acos(1))))+tan(radians(2".toList := by decide +kernel

/-- Names inside names stay, and a constant brings its own parenthesis. -/
example :
    canonical .radians .nan "mean(e)^ans log(ln(sinπ".toList =
      "mean((2.718281828459045))**(NaN) log10(log(sin(3.141592653589793)".toList := by
  decide +kernel

end Calculator
