import Calculator.Binary64.Round
import Calculator.Binary64.SquareRoot

/-!
# Arithmetic on binary64 numbers

Each operation takes its exact result in quanta and rounds it once. A sum of opposite infinities,
a product of zero and infinity and the remainder of an infinity are not numbers; a remainder has the
sign of the dividend and is always exact.
-/
namespace Calculator.Binary64

/-- The number of `n` quanta, for an integer `n`; an exact sum of zero has the sign given. -/
def ofQuanta (zeroSign : Sign) (n : Int) : Binary64 :=
  if n = 0 then .finite zeroSign .zero else ofQuotient (Sign.ofInt n) n.natAbs 1

/-- The sign of an exact sum of zero: negative only if both summands are. -/
def sumZeroSign : Sign → Sign → Sign
  | .negative, .negative => .negative
  | _, _ => .positive

def add (x y : Binary64) : Binary64 :=
  match x, y with
  | .nan, _ => .nan
  | _, .nan => .nan
  | .infinite s, .infinite t => if s = t then .infinite s else .nan
  | .infinite s, _ => .infinite s
  | _, .infinite t => .infinite t
  | .finite s m, .finite t n =>
    ofQuanta (sumZeroSign s t) (s.apply m.quanta + t.apply n.quanta)

def sub (x y : Binary64) : Binary64 :=
  add x y.neg

def mul (x y : Binary64) : Binary64 :=
  match x, y with
  | .nan, _ => .nan
  | _, .nan => .nan
  | .infinite s, .infinite t => .infinite (s.times t)
  | .infinite s, .finite t n => if n.quanta = 0 then .nan else .infinite (s.times t)
  | .finite s m, .infinite t => if m.quanta = 0 then .nan else .infinite (s.times t)
  | .finite s m, .finite t n => ofQuotient (s.times t) (m.quanta * n.quanta) quantaPerUnit

/-- The quotient. A zero divisor gives an infinity, or no number if the dividend is zero too. -/
def div (x y : Binary64) : Binary64 :=
  match x, y with
  | .nan, _ => .nan
  | _, .nan => .nan
  | .infinite _, .infinite _ => .nan
  | .infinite s, .finite t _ => .infinite (s.times t)
  | .finite s _, .infinite t => .finite (s.times t) .zero
  | .finite s m, .finite t n =>
    if n.quanta = 0 then (if m.quanta = 0 then .nan else .infinite (s.times t))
    else ofQuotient (s.times t) (m.quanta * quantaPerUnit) n.quanta

/-- The remainder of division toward zero, with the sign of the dividend. -/
def remainder (x y : Binary64) : Binary64 :=
  match x, y with
  | .nan, _ => .nan
  | _, .nan => .nan
  | .infinite _, _ => .nan
  | x, .infinite _ => x
  | .finite s m, .finite _ n =>
    if n.quanta = 0 then .nan else ofQuotient s (m.quanta % n.quanta) 1

/-- The square root; of a number below zero there is none, and a zero is its own root. The root in
quanta is cut to a whole number, and one further binary digit records whether it was whole. -/
def sqrt (x : Binary64) : Binary64 :=
  match x with
  | .nan => .nan
  | .infinite .positive => .infinite .positive
  | .infinite .negative => .nan
  | .finite s m =>
    if m.quanta = 0 then .finite s m
    else match s with
      | .negative => .nan
      | .positive =>
        let square := m.quanta * quantaPerUnit
        let root := floorSqrt square
        ofQuotient .positive (2 * root + if root * root = square then 0 else 1) 2

instance : Add Binary64 := ⟨add⟩
instance : Sub Binary64 := ⟨sub⟩
instance : Mul Binary64 := ⟨mul⟩
instance : Div Binary64 := ⟨div⟩
instance : Mod Binary64 := ⟨remainder⟩

/-- The whole number that a finite number is equal to, if it is one. -/
def toInt? (x : Binary64) : Option Int :=
  match x with
  | .finite s m =>
    if m.quanta % quantaPerUnit = 0 then some (s.apply (m.quanta / quantaPerUnit)) else none
  | _ => none

end Calculator.Binary64
