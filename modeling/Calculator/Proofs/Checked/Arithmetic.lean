import Calculator.Error
import Calculator.Primitive

/-!
# Checked arithmetic

The arithmetic of the machine can refuse: a library function at an argument where it is invalid, a
power that overflows, a division by zero, a conversion of what is not finite. Here every operation
says so, and the handlers around it are written out. With them each primitive gives exactly the value
that evaluation uses, so that no refusal is left.
-/
namespace Calculator

/-- A refusal of the machine, which is no fault of the expression. -/
inductive Slip where
  /-- There is no token at a position. -/
  | outOfRange
  /-- A table has no entry for a name. -/
  | missingKey
  /-- A value is not one that an operation accepts. -/
  | badValue
  /-- A result is too large for a number. -/
  | overflow
  /-- A division by zero that nobody looked for. -/
  | zeroDivision
  /-- A function is called with a wrong number of arguments. -/
  | badCall
  /-- A loop has not ended within its bound. -/
  | endless
  /-- A library fails. -/
  | raised (failure : Failure)
  deriving DecidableEq, Repr

namespace Checked

/-- A library function, which refuses the arguments at which it is invalid. -/
def library (invalid : Binary64 → Bool) (f : Binary64 → Binary64) (x : Binary64) :
    Except Slip Binary64 :=
  if invalid x then .error .badValue else .ok (f x)

/-- Refusals become what the arithmetic of binary64 numbers has for them. -/
def ieee (f : Binary64 → Except Slip Binary64) (x : Binary64) : Except Slip Binary64 :=
  match f x with
  | .error .overflow => .ok (.infinite .positive)
  | .error .badValue => .ok .nan
  | result => result

/-- A logarithm, with the value at zero put before. -/
def logOf (f : Binary64 → Except Slip Binary64) : Binary64 → Except Slip Binary64 :=
  ieee fun x => if x.isZero then .ok (.infinite .negative) else f x

def isInfinite : Binary64 → Bool
  | .infinite _ => true
  | _ => false

/-- The absolute value is greater than one. -/
def exceedsOne : Binary64 → Bool
  | .nan => false
  | .infinite _ => true
  | .finite _ m => quantaPerUnit < m.quanta

/-- The number is zero or less than zero. -/
def notPositive (x : Binary64) : Bool :=
  x.isZero || x.isNegative

theorem ieee_library {invalid : Binary64 → Bool} {f : Binary64 → Binary64}
    (h : ∀ x, invalid x = true → f x = .nan) (x : Binary64) :
    ieee (library invalid f) x = .ok (f x) := by
  unfold ieee library
  cases valid : invalid x with
  | false => rfl
  | true => rw [h x valid]; rfl

theorem significand_of_quanta {m : Magnitude} (h : m.quanta = 0) : m.significand = 0 := by
  rw [Magnitude.eq_zero_of_quanta h]
  rfl

theorem quanta_of_significand {m : Magnitude} (h : m.significand = 0) : m.quanta = 0 := by
  rw [Magnitude.quanta, h, Nat.zero_mul]

theorem quanta_of_exceedsOne {s : Sign} {m : Magnitude} (h : exceedsOne (.finite s m) = true) :
    quantaPerUnit < m.quanta := by
  simpa only [exceedsOne, decide_eq_true_eq] using h

/-- Both logarithms refuse what is not positive and give the negative infinity at zero. -/
theorem logOf_library (f : Magnitude → Binary64) (x : Binary64) :
    logOf (library notPositive (Binary64.logarithmWith f)) x =
      .ok (Binary64.logarithmWith f x) := by
  cases zero : x.isZero with
  | true =>
    match x, zero with
    | .finite s m, zero =>
      have none := quanta_of_significand (beq_iff_eq.1 zero)
      simp [logOf, ieee, zero, Binary64.logarithmWith, none]
  | false =>
    have negative : notPositive x = x.isNegative := by rw [notPositive, zero, Bool.false_or]
    cases below : x.isNegative with
    | false => simp [logOf, ieee, zero, library, negative, below]
    | true =>
      match x, below with
      | .infinite .negative, _ => rfl
      | .finite .negative m, below =>
        have some : m.quanta ≠ 0 := by
          intro none
          rw [Binary64.isZero, significand_of_quanta none] at zero
          cases zero
        simp [logOf, ieee, zero, library, negative, below, Binary64.logarithmWith, some]

/-! ## Powers -/

/-- The whole part of a number as an integer; what is not finite has none. -/
def truncate : Binary64 → Except Slip Int
  | .nan => .error .badValue
  | .infinite _ => .error .overflow
  | .finite s m => .ok (s.apply (m.quanta / quantaPerUnit))

/-- A number is equal to an integer. -/
def equalsInt (x : Binary64) (i : Int) : Bool :=
  match x with
  | .finite s m => s.apply m.quanta = i * quantaPerUnit
  | _ => false

/-- Finite, equal to its whole part, and that odd. -/
def isOddInteger (x : Binary64) : Except Slip Bool :=
  if x.isFinite then do
    let whole ← truncate x
    if equalsInt x whole then do
      let whole ← truncate x
      .ok (whole % 2 == 1)
    else .ok false
  else .ok false

/-- The power of the library: from finite numbers it refuses to give what is not finite. -/
def libraryPower (x y : Binary64) : Except Slip Binary64 :=
  if x.isFinite && y.isFinite && (x.power y).isNaN then .error .badValue
  else if x.isFinite && y.isFinite && isInfinite (x.power y) then
    if x.isZero then .error .badValue else .error .overflow
  else .ok (x.power y)

/-- The power, with refusals replaced by infinities and by what is not a number. -/
def power (x y : Binary64) : Except Slip Binary64 :=
  match libraryPower x y with
  | .error .overflow =>
    if x.isNegative then do
      let odd ← isOddInteger y
      .ok (.infinite (if odd then .negative else .positive))
    else .ok (.infinite .positive)
  | .error .badValue =>
    if x.isZero then do
      let odd ← isOddInteger y
      .ok (if odd then (Binary64.infinite .positive).withSign (if x.hasMinus then .negative else .positive)
        else .infinite .positive)
    else .ok .nan
  | result => result

/-- An integer is a multiple of `u` if its whole quotient by `u` leaves nothing over. -/
theorem apply_eq_quotient_mul (s : Sign) (n u : Nat) :
    s.apply n = s.apply (n / u) * (u : Int) ↔ n % u = 0 := by
  have parts := Nat.div_add_mod n u
  have scaled : s.apply (n / u) * (u : Int) = s.apply (n / u * u) := by
    cases s with
    | positive => exact (Int.natCast_mul (n / u) u).symm
    | negative =>
      simp only [Sign.apply, Int.natCast_mul]
      exact Int.neg_mul _ _
  rw [Nat.mul_comm] at parts
  rw [scaled]
  cases s <;> simp only [Sign.apply] <;> omega

theorem equalsInt_truncate (s : Sign) (m : Magnitude) :
    equalsInt (.finite s m) (s.apply (m.quanta / quantaPerUnit)) =
      decide (m.quanta % quantaPerUnit = 0) :=
  decide_eq_decide.2 (apply_eq_quotient_mul s m.quanta quantaPerUnit)

theorem isOddInteger_eq (x : Binary64) : isOddInteger x = .ok x.isOddInteger := by
  cases x with
  | nan => rfl
  | infinite s => rfl
  | finite s m =>
    have finite : (Binary64.finite s m).isFinite = true := rfl
    have whole : truncate (.finite s m) = .ok (s.apply (m.quanta / quantaPerUnit)) := rfl
    unfold isOddInteger
    rw [if_pos finite, whole]
    change (if equalsInt (.finite s m) (s.apply (m.quanta / quantaPerUnit)) = true then
      Except.ok (s.apply (m.quanta / quantaPerUnit) % 2 == 1) else .ok false) = _
    rw [equalsInt_truncate, Binary64.isOddInteger, Binary64.toInt?]
    by_cases h : m.quanta % quantaPerUnit = 0
    · simp [h]
    · simp [h]

/-- A number that is not finite is no result of a finite power, except beyond all bounds. -/
theorem power_finite (s t : Sign) (m n : Magnitude)
    (h : ¬ ((Binary64.finite t n).isZero = true ∨ Binary64.finite s m = .one)) :
    (Binary64.finite s m).power (.finite t n) =
      if (Binary64.finite s m).isNegative = true ∧ (Binary64.finite t n).toInt? = none then .nan
      else (Binary64.absolutePower (.finite s m) (.finite t n)).withSign
        (if (Binary64.finite s m).hasMinus = true ∧ (Binary64.finite t n).isOddInteger = true then
          .negative else .positive) := by
  unfold Binary64.power
  rw [if_neg h]
  simp [Binary64.isFinite]

/-- One is finite. -/
theorem isFinite_one : Binary64.one.isFinite = true := by
  decide +kernel

/-- An infinite power of finite numbers is negative exactly for a base with a minus sign and an odd
exponent. -/
theorem power_infinite {x y : Binary64} (hx : x.isFinite = true) (hy : y.isFinite = true)
    (h : isInfinite (x.power y) = true) :
    x.power y =
      .infinite (if x.hasMinus = true ∧ y.isOddInteger = true then .negative else .positive) := by
  match x, y, hx, hy with
  | .finite s m, .finite t n, _, _ =>
    by_cases trivial : (Binary64.finite t n).isZero = true ∨ Binary64.finite s m = .one
    · unfold Binary64.power at h
      rw [if_pos trivial] at h
      have finite := isFinite_one
      cases one : Binary64.one with
      | finite s' m' => rw [one] at h; cases h
      | nan => rw [one] at finite; cases finite
      | infinite s' => rw [one] at finite; cases finite
    · rw [power_finite s t m n trivial] at h ⊢
      split at h
      · cases h
      · rename_i regular
        rw [if_neg regular]
        cases absolute : Binary64.absolutePower (.finite s m) (.finite t n) with
        | infinite s' => rfl
        | nan => rw [absolute] at h; cases h
        | finite s' m' => rw [absolute] at h; cases h

/-- A power of zero is a number. -/
theorem power_zero_base {x y : Binary64} (hx : x.isZero = true) (hy : y.isFinite = true) :
    (x.power y).isNaN = false := by
  match x, y, hx, hy with
  | .finite s m, .finite t n, hx, _ =>
    have none := quanta_of_significand (beq_iff_eq.1 hx)
    by_cases trivial : (Binary64.finite t n).isZero = true ∨ Binary64.finite s m = .one
    · unfold Binary64.power
      rw [if_pos trivial]
      decide +kernel
    · have negative : (Binary64.finite s m).isNegative = false := by
        rw [Binary64.isNegative, significand_of_quanta none]
        simp
      rw [power_finite s t m n trivial, negative]
      simp only [Bool.false_eq_true, false_and, if_false, Binary64.absolutePower, none, if_true]
      cases t <;> rfl

/-- A finite number is below zero if it carries a minus sign and is not zero. -/
theorem isNegative_eq_hasMinus {x : Binary64} (finite : x.isFinite = true)
    (h : x.isZero = false) : x.isNegative = x.hasMinus := by
  match x, finite with
  | .finite s m, _ =>
    rw [Binary64.isZero] at h
    rw [Binary64.isNegative, Binary64.hasMinus, bne, h]
    simp

/-- With its refusals replaced the power of the library is the power of evaluation. -/
theorem power_eq (x y : Binary64) : power x y = .ok (x.power y) := by
  by_cases finite : x.isFinite = true ∧ y.isFinite = true
  · obtain ⟨hx, hy⟩ := finite
    by_cases nan : (x.power y).isNaN = true
    · have refused : libraryPower x y = .error .badValue := by
        simp [libraryPower, hx, hy, nan]
      have some : x.isZero = false := by
        cases zero : x.isZero with
        | false => rfl
        | true =>
          rw [power_zero_base zero hy] at nan
          cases nan
      have value : x.power y = .nan := by
        cases result : x.power y with
        | nan => rfl
        | infinite s => rw [result] at nan; cases nan
        | finite s m => rw [result] at nan; cases nan
      rw [power, refused, some, value]
      rfl
    · by_cases infinite : isInfinite (x.power y) = true
      · have value := power_infinite hx hy infinite
        cases zero : x.isZero with
        | true =>
          have refused : libraryPower x y = .error .badValue := by
            simp [libraryPower, hx, hy, nan, infinite, zero]
          rw [power, refused, value]
          simp only [zero, if_true, isOddInteger_eq]
          cases y.isOddInteger <;> cases x.hasMinus <;> rfl
        | false =>
          have refused : libraryPower x y = .error .overflow := by
            simp [libraryPower, hx, hy, nan, infinite, zero]
          rw [power, refused, value, ← isNegative_eq_hasMinus hx zero]
          simp only [isOddInteger_eq]
          cases x.isNegative <;> cases y.isOddInteger <;> rfl
      · have result : libraryPower x y = .ok (x.power y) := by
          simp [libraryPower, nan, infinite]
        rw [power, result]
  · have result : libraryPower x y = .ok (x.power y) := by
      rcases Decidable.not_and_iff_or_not.1 finite with hx | hy
      · simp [libraryPower, hx]
      · simp [libraryPower, hy]
    rw [power, result]

/-! ## Quotients and remainders -/

/-- The quotient, which refuses a zero divisor. -/
def divide (x y : Binary64) : Except Slip Binary64 :=
  if y.isZero then .error .zeroDivision else .ok (x / y)

/-- The remainder of the library: an infinity has none, and none is by zero. -/
def libraryRemainder (x y : Binary64) : Except Slip Binary64 :=
  if isInfinite x && !y.isNaN || y.isZero && !x.isNaN then .error .badValue else .ok (x % y)

/-- The remainder, with refusals replaced by what is not a number. -/
def remainder (x y : Binary64) : Except Slip Binary64 :=
  match libraryRemainder x y with
  | .error .badValue => .ok .nan
  | result => result

theorem divide_eq (x : Binary64) {y : Binary64} (h : y.isZero = false) :
    divide x y = .ok (x / y) := by
  rw [divide, h]
  rfl

theorem remainder_eq (x : Binary64) {y : Binary64} (h : y.isZero = false) :
    remainder x y = .ok (x % y) := by
  unfold remainder libraryRemainder
  rw [h, Bool.false_and, Bool.or_false]
  match x, y with
  | .nan, _ => rfl
  | .finite s m, _ => rfl
  | .infinite s, .nan => rfl
  | .infinite s, .infinite t => rfl
  | .infinite s, .finite t n => rfl

end Checked

/-! ## Primitives -/

namespace Primitive

/-- A primitive of one argument, with its handlers. -/
def checkedUnary (p : Primitive) (x : Binary64) : Except Slip Binary64 :=
  open Checked in
  match p with
  | .sin => ieee (library isInfinite .sin) x
  | .cos => ieee (library isInfinite .cos) x
  | .tan => ieee (library isInfinite .tan) x
  | .asin => ieee (library exceedsOne .arcsin) x
  | .acos => ieee (library exceedsOne .arccos) x
  | .atan => ieee (library (fun _ => false) .arctan) x
  | .radians => .ok x.degreesToRadians
  | .degrees => .ok x.radiansToDegrees
  | .log => logOf (library notPositive .log) x
  | .log10 => logOf (library notPositive .log10) x
  | .sqrt => ieee (library Binary64.isNegative .sqrt) x
  | .pow => .error .badCall

theorem checkedUnary_eq {p : Primitive} {f : Binary64 → Binary64} (h : p.function = .unary f)
    (x : Binary64) : p.checkedUnary x = .ok (f x) := by
  open Checked in
  cases p <;> cases h
  case sin | cos | tan =>
    refine ieee_library ?_ x
    intro x invalid
    cases x with
    | infinite s => rfl
    | nan => cases invalid
    | finite s m => cases invalid
  case asin =>
    refine ieee_library ?_ x
    intro x invalid
    cases x with
    | nan => cases invalid
    | infinite s => rfl
    | finite s m =>
      have large := quanta_of_exceedsOne invalid
      have some : m.quanta ≠ 0 := Nat.ne_of_gt (Nat.zero_lt_of_lt large)
      rw [Binary64.arcsin, if_neg some, if_pos large]
  case acos =>
    refine ieee_library ?_ x
    intro x invalid
    cases x with
    | nan => cases invalid
    | infinite s => rfl
    | finite s m => rw [Binary64.arccos, if_pos (quanta_of_exceedsOne invalid)]
  case atan => rfl
  case radians | degrees => rfl
  case log | log10 => exact logOf_library _ x
  case sqrt =>
    refine ieee_library ?_ x
    intro x invalid
    match x, invalid with
    | .infinite .negative, _ => rfl
    | .finite .negative m, invalid =>
      have some : m.quanta ≠ 0 := by
        intro none
        rw [Binary64.isNegative, significand_of_quanta none] at invalid
        cases invalid
      rw [Binary64.sqrt, if_neg some]

/-- A primitive at its arguments; it cannot be called with another number of them. -/
def checkedCall (p : Primitive) (arguments : List Binary64) : Except Slip Binary64 :=
  match p, arguments with
  | .pow, [x, y] => Checked.power x y
  | p, [x] => p.checkedUnary x
  | _, _ => .error .badCall

/-- With the right number of arguments a primitive gives its value. -/
theorem checkedCall_eq {p : Primitive} {arguments : List Binary64} {x : Binary64}
    (h : p.function.valueAt? arguments = some x) : p.checkedCall arguments = .ok x := by
  cases found : p.function with
  | unary f =>
    rw [found] at h
    match arguments, h with
    | [y], h =>
      cases h
      have value := checkedUnary_eq found y
      cases p with
      | pow => cases found
      | _ => exact value
  | binary f =>
    rw [found] at h
    match arguments, h with
    | [y, z], h =>
      cases h
      cases p <;> cases found
      exact Checked.power_eq y z

end Primitive

end Calculator
