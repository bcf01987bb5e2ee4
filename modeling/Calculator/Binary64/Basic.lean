/-!
# Binary64 numbers

Every number the calculator shows or remembers is a binary64 number: not a number, an infinity, or
a sign with a magnitude. A magnitude is a whole number of quanta, where one quantum is `2 ^ -1074`,
the smallest positive number of the format. Counting in quanta makes every finite number a natural
number with a sign, so comparisons and exact sums need no fractions.
-/
namespace Calculator

inductive Sign where
  | positive | negative
  deriving DecidableEq, Repr

namespace Sign

def opposite : Sign → Sign
  | .positive => .negative
  | .negative => .positive

/-- The sign of a product or a quotient. -/
def times : Sign → Sign → Sign
  | .positive, s => s
  | .negative, s => s.opposite

/-- The integer of this sign and absolute value `n`. -/
def apply : Sign → Nat → Int
  | .positive, n => n
  | .negative, n => -n

/-- The sign of an integer that is not zero; zero counts as positive. -/
def ofInt (i : Int) : Sign :=
  if i < 0 then .negative else .positive

@[simp] theorem opposite_opposite (s : Sign) : s.opposite.opposite = s := by
  cases s <;> rfl

@[simp] theorem natAbs_apply (s : Sign) (n : Nat) : (s.apply n).natAbs = n := by
  cases s <;> simp [apply]

end Sign

/-- A finite absolute value: `significand * 2 ^ scale` quanta, with at most 53 binary digits in the
significand and all 53 of them unless the scale is zero. Each value has one such form. -/
structure Magnitude where
  significand : Nat
  scale : Nat
  significand_lt : significand < Nat.pow 2 53
  full : scale = 0 ∨ Nat.pow 2 52 ≤ significand
  scale_le : scale ≤ 2045
  deriving DecidableEq, Repr

namespace Magnitude

/-- The magnitude with these parts, if they form one. -/
def ofParts? (significand scale : Nat) : Option Magnitude :=
  if h : significand < Nat.pow 2 53 ∧ (scale = 0 ∨ Nat.pow 2 52 ≤ significand) ∧ scale ≤ 2045 then
    some ⟨significand, scale, h.1, h.2.1, h.2.2⟩
  else none

/-- The number of quanta in a magnitude. -/
def quanta (m : Magnitude) : Nat :=
  m.significand * Nat.pow 2 m.scale

def zero : Magnitude :=
  ⟨0, 0, by decide, .inl rfl, by decide⟩

theorem ofParts?_eq_some (m : Magnitude) : ofParts? m.significand m.scale = some m :=
  dif_pos ⟨m.significand_lt, m.full, m.scale_le⟩

theorem eq_zero_of_quanta {m : Magnitude} (h : m.quanta = 0) : m = .zero := by
  have significand : m.significand = 0 :=
    (Nat.mul_eq_zero.1 h).resolve_right (Nat.ne_of_gt (Nat.two_pow_pos _))
  have scale : m.scale = 0 :=
    m.full.resolve_right (by rw [significand]; decide)
  cases m
  simp_all [zero]

end Magnitude

/-- A binary64 number. Zero keeps its sign, and there is one value that is not a number. -/
inductive Binary64 where
  | nan
  | infinite (sign : Sign)
  | finite (sign : Sign) (magnitude : Magnitude)
  deriving DecidableEq, Repr

/-- The number of quanta in one: numbers count in steps of `2 ^ -1074`. -/
def quantaPerUnit : Nat := Nat.pow 2 1074

namespace Binary64

/-- Positive zero. -/
def zero : Binary64 := .finite .positive .zero

instance : Inhabited Binary64 := ⟨zero⟩

def isNaN (x : Binary64) : Bool :=
  match x with
  | .nan => true
  | _ => false

/-- Zero of either sign. -/
def isZero (x : Binary64) : Bool :=
  match x with
  | .finite _ m => m.significand == 0
  | _ => false

def isFinite (x : Binary64) : Bool :=
  match x with
  | .finite _ _ => true
  | _ => false

/-- The number carries a minus sign, which negative zero does too. -/
def hasMinus (x : Binary64) : Bool :=
  match x with
  | .nan => false
  | .infinite s => s == .negative
  | .finite s _ => s == .negative

/-- Less than zero; not so for negative zero. -/
def isNegative (x : Binary64) : Bool :=
  match x with
  | .nan => false
  | .infinite s => s == .negative
  | .finite s m => s == .negative && m.significand != 0

def neg (x : Binary64) : Binary64 :=
  match x with
  | .nan => .nan
  | .infinite s => .infinite s.opposite
  | .finite s m => .finite s.opposite m

/-- The number with its sign replaced. -/
def withSign (s : Sign) (x : Binary64) : Binary64 :=
  match x with
  | .nan => .nan
  | .infinite _ => .infinite s
  | .finite _ m => .finite s m

instance : Neg Binary64 := ⟨neg⟩

end Binary64

end Calculator
