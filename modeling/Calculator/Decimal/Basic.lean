import Calculator.Binary64.Round

/-!
# Decimal numbers and the binary64 numbers nearest to them

A decimal is a natural number of digits scaled by a power of ten. Reading one rounds its exact value
once. Exponents too great or too small to matter are recognised before any power of ten is computed,
so that reading stays cheap for every text.
-/
namespace Calculator

/-- The number of decimal digits of a natural number, at least one. -/
def digitCount (n : Nat) : Nat :=
  (Nat.toDigits 10 n).length

/-- The number `digits * 10 ^ exponent`. -/
structure Decimal where
  digits : Nat
  exponent : Int
  deriving DecidableEq, Repr

namespace Decimal

/-- Ten to an exponent above this one exceeds every finite binary64 number. -/
def exponentLimit : Nat := 400

/-- More binary places than the quantum has. -/
def vanishingBits : Nat := 1200

/-- The magnitude nearest to a decimal; none if it would be too large. A quotient by a power of ten
vanishes if it does so by the same power of eight. -/
def toMagnitude? (d : Decimal) : Option Magnitude :=
  match d.exponent with
  | .ofNat e =>
    if d.digits = 0 then some .zero
    else if exponentLimit < e then none
    else Magnitude.ofQuotient? (d.digits * Nat.pow 10 e * quantaPerUnit) 1
  | .negSucc e =>
    if d.digits.log2 + vanishingBits < 3 * (e + 1) then some .zero
    else Magnitude.ofQuotient? (d.digits * quantaPerUnit) (Nat.pow 10 (e + 1))

theorem toMagnitude?_negSucc (digits e : Nat) :
    toMagnitude? ⟨digits, Int.negSucc e⟩ =
      if digits.log2 + vanishingBits < 3 * (e + 1) then some .zero
      else Magnitude.ofQuotient? (digits * quantaPerUnit) (Nat.pow 10 (e + 1)) := rfl

/-- The decimal without the zeros that end its digits. -/
def trim.go : Nat → Nat → Int → Decimal
  | 0, digits, exponent => ⟨digits, exponent⟩
  | steps + 1, digits, exponent =>
    if digits ≠ 0 ∧ digits % 10 = 0 then trim.go steps (digits / 10) (exponent + 1)
    else ⟨digits, exponent⟩

/-- The decimal of the same value whose digits do not end in zero. -/
def trim (d : Decimal) : Decimal :=
  trim.go d.digits.log2 d.digits d.exponent

/-- The exponent of the leading digit. -/
def leadingExponent (d : Decimal) : Int :=
  d.exponent + digitCount d.digits - 1

end Decimal

namespace Binary64

/-- The number nearest to a decimal with a sign. -/
def ofDecimal (s : Sign) (d : Decimal) : Binary64 :=
  match d.toMagnitude? with
  | some m => .finite s m
  | none => .infinite s

end Binary64

end Calculator
