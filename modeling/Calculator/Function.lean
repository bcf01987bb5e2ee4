import Calculator.Binary64.Basic

/-!
# Functions and constants by name

Evaluation knows functions and constants by their names, and any registry of them will do.
-/
namespace Calculator

/-- A function of one or two numbers. -/
inductive Function where
  | unary (apply : Binary64 → Binary64)
  | binary (apply : Binary64 → Binary64 → Binary64)

namespace Function

/-- The number of arguments. -/
def arity : Function → Nat
  | .unary _ => 1
  | .binary _ => 2

/-- The value at a list of arguments of the right length. -/
def valueAt? : Function → List Binary64 → Option Binary64
  | .unary f, [x] => some (f x)
  | .binary f, [x, y] => some (f x y)
  | _, _ => none

end Function

/-- The functions and constants that expressions can name. -/
structure Registry where
  function? : List Char → Option Function
  constant? : List Char → Option Binary64

end Calculator
