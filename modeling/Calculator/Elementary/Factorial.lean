import Calculator.Binary64.Round
import Calculator.Error

/-!
# Factorials

The factorial of a whole number is the exact product, rounded once. Between the whole numbers it is
found by a library of numbers with more digits, and what the library finds is converted. The library
is a parameter: it may fail at any call, and its failures are passed on, except that a value beyond
all binary64 numbers becomes infinite.
-/
namespace Calculator

/-- The product of the numbers from one to `n`. -/
def factorialProduct : Nat → Nat
  | 0 => 1
  | n + 1 => (n + 1) * factorialProduct n

/-- Why a value of a library is not converted to a binary64 number. -/
inductive ConversionFailure where
  /-- It is too large for one. -/
  | overflow
  | failed (failure : Failure)
  deriving DecidableEq, Repr

/-- A library that continues the factorial between the whole numbers, with values of its own. -/
structure FactorialLibrary where
  Value : Type
  /-- The factorial of a number, found with a number of decimal digits. -/
  factorial (digits : Nat) (x : Binary64) : Except Failure Value
  /-- The binary64 number nearest to a value. -/
  toBinary64 : Value → Except ConversionFailure Binary64

namespace FactorialLibrary

/-- The number of decimal digits that factorials are found with. -/
def workingDigits : Nat := 30

/-- The factorial that the library finds, as a binary64 number. -/
def rounded (library : FactorialLibrary) (x : Binary64) : Except Failure Binary64 := do
  let value ← library.factorial workingDigits x
  match library.toBinary64 value with
  | .ok y => .ok y
  | .error .overflow => .ok (.infinite .positive)
  | .error (.failed failure) => .error failure

/-- What a library of the gamma function has: its poles lie below zero, so it has a factorial for every
finite number that is not negative, and each of its values is converted unless it is too large. -/
structure IsComplete (library : FactorialLibrary) : Prop where
  defined : ∀ digits x, 0 < digits → x.isFinite = true → x.isNegative = false →
    ∃ value, library.factorial digits x = .ok value
  converted : ∀ value failure, library.toBinary64 value ≠ .error (.failed failure)

end FactorialLibrary

namespace Binary64

/-- The greatest whole number whose factorial is finite. -/
def factorialLimit : Nat := 170

/-- The factorial, which a library finds between whole numbers. Numbers below zero have none. -/
def factorial (library : FactorialLibrary) (x : Binary64) : Except Failure Binary64 :=
  match x with
  | .nan => .ok .nan
  | .infinite .positive => .ok (.infinite .positive)
  | .infinite .negative => .ok .nan
  | .finite s m =>
    let whole := m.quanta / quantaPerUnit
    if s = .negative ∧ m.quanta ≠ 0 then .ok .nan
    else if m.quanta % quantaPerUnit = 0 then
      .ok (if factorialLimit < whole then .infinite .positive else ofNat (factorialProduct whole))
    else library.rounded x

end Binary64

end Calculator
