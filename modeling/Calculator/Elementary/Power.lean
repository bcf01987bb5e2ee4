import Calculator.Elementary.Exponential

/-!
# Powers

A power is found on absolute values and then given its sign, which is negative exactly for a
negative base and an odd whole exponent. Powers that are binary fractions of few digits are computed
exactly, since only they can lie on or halfway between binary64 numbers; all others go through the
exponential of the exponent times the logarithm and are rounded once, where a mathematical library may
differ in the last place.
-/
namespace Calculator

/-- The number `odd * 2 ^ exponent`. -/
structure BinaryFraction where
  odd : Nat
  exponent : Int
  deriving DecidableEq, Repr

namespace BinaryFraction

/-- The factors of two of a number move into the exponent, at most `steps` of them. -/
def reduce : Nat → BinaryFraction → BinaryFraction
  | 0, b => b
  | steps + 1, b =>
    if b.odd ≠ 0 ∧ b.odd % 2 = 0 then reduce steps ⟨b.odd / 2, b.exponent + 1⟩ else b

/-- A magnitude as an odd number times a power of two. -/
def ofMagnitude (m : Magnitude) : BinaryFraction :=
  reduce 53 ⟨m.significand, m.scale - 1074⟩

/-- The square root, if it is a binary fraction too. -/
def sqrt? (b : BinaryFraction) : Option BinaryFraction :=
  let root := floorSqrt b.odd
  if root * root = b.odd ∧ b.exponent % 2 = 0 then some ⟨root, b.exponent / 2⟩ else none

/-- The positive binary64 number nearest to a binary fraction. -/
def toBinary64 (b : BinaryFraction) : Binary64 :=
  match b.exponent + 1074 with
  | .ofNat e => .ofQuotient .positive (b.odd * Nat.pow 2 e) 1
  | .negSucc e => .ofQuotient .positive b.odd (Nat.pow 2 (e + 1))

/-- A power of two, with exponents beyond the range of binary64 recognised first. -/
def powerOfTwo (exponent : Int) : Binary64 :=
  if exponent < -3000 then .zero
  else if 3000 < exponent then .infinite .positive
  else toBinary64 ⟨1, exponent⟩

/-- The power with a whole exponent, if it is a binary fraction of few digits. -/
def wholePower? (b : BinaryFraction) (exponent : Int) : Option Binary64 :=
  if b.odd = 1 then some (powerOfTwo (b.exponent * exponent))
  else if 0 < exponent ∧ exponent ≤ 64 then
    some (toBinary64 ⟨Nat.pow b.odd exponent.toNat, b.exponent * exponent⟩)
  else none

/-- The power `b ^ (p * 2 ^ -halvings)`: square roots of the base take halvings off the exponent. -/
def fractionalPower? (b : BinaryFraction) (p : Int) : Nat → Option Binary64
  | 0 => b.wholePower? p
  | halvings + 1 => b.sqrt?.bind fun root => root.fractionalPower? p halvings

/-- The exact power rounded once, if it is a binary fraction of few digits. Repeated square roots
of a binary fraction other than one leave the binary fractions after a few steps. -/
def power? (b : BinaryFraction) (s : Sign) (e : BinaryFraction) : Option Binary64 :=
  if b = ⟨1, 0⟩ then some (powerOfTwo 0)
  else match e.exponent with
    | .ofNat k => b.wholePower? (s.apply (e.odd * Nat.pow 2 k))
    | .negSucc k => if k < 16 then b.fractionalPower? (s.apply e.odd) (k + 1) else none

end BinaryFraction

namespace Magnitude

/-- Exponentials beyond this one are infinite, and below its opposite they are zero. -/
def exponentialLimit : Nat := 800

/-- The power of a positive magnitude with an exponent that is not zero. -/
def power (m : Magnitude) (s : Sign) (e : Magnitude) : Binary64 :=
  match (BinaryFraction.ofMagnitude m).power? s (.ofMagnitude e) with
  | some x => x
  | none =>
    let log := Fixed.logarithm m
    let x : Fixed := ⟨log.units * s.apply e.quanta / quantaPerUnit⟩
    if (Fixed.ofInt exponentialLimit).units < x.units then .infinite .positive
    else if x.units < -(Fixed.ofInt exponentialLimit).units then .zero
    else
      let (factor, k) := x.exponential
      factor.toBinary64Scaled k

end Magnitude

namespace Binary64

def one : Binary64 := ofNat 1

/-- A whole number that is odd. -/
def isOddInteger (x : Binary64) : Bool :=
  match x.toInt? with
  | some i => i % 2 == 1
  | none => false

/-- The power of an absolute value with an exponent that is not zero. A quantity above one grows
without bound as the exponent does, and one below vanishes. -/
def absolutePower (x y : Binary64) : Binary64 :=
  match x, y with
  | .nan, _ => .nan
  | _, .nan => .nan
  | .infinite _, y => if y.hasMinus then .zero else .infinite .positive
  | .finite _ m, .infinite t =>
    if m.quanta = quantaPerUnit then one
    else if (quantaPerUnit < m.quanta) = (t = .positive) then .infinite .positive
    else .zero
  | .finite _ m, .finite t n =>
    if m.quanta = 0 then (if t = .negative then .infinite .positive else .zero)
    else m.power t n

/-- The power. An exponent of zero and a base of one give one even beside something that is not a
number; a finite negative base with a finite exponent that is not whole has no power. -/
def power (x y : Binary64) : Binary64 :=
  if y.isZero ∨ x = one then one
  else match x, y with
    | .nan, _ => .nan
    | _, .nan => .nan
    | x, y =>
      if x.isFinite ∧ y.isFinite ∧ x.isNegative ∧ y.toInt? = none then .nan
      else (absolutePower x y).withSign (if x.hasMinus ∧ y.isOddInteger then .negative else .positive)

/-- Exact powers, roots, overflow and the signs of zero and infinity. -/
example :
    [(ofNat 10).power (ofNat 22), (ofNat 2).power (ofDecimal .positive ⟨5, -1⟩),
      (ofNat 10).power (ofNat 400), (ofNat 2).neg.power (ofNat 3), zero.neg.power (ofNat 3).neg,
      (ofNat 8).neg.power (ofDecimal .positive ⟨5, -1⟩), nan.power zero] =
    [ofNat (Nat.pow 10 22), (ofNat 2).sqrt, infinite .positive, (ofNat 8).neg, infinite .negative, nan,
      ofNat 1] := by
  decide +kernel

end Binary64

end Calculator
