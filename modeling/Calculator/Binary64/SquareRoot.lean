/-!
# Whole parts of square roots

The whole part of a square root is approached from above: the mean of a guess and of what the number
divided by it leaves is a better guess, until it is none.
-/
namespace Calculator

/-- Improves a guess that is not below the square root of `n`, in at most `steps` steps. -/
def improveRoot (n : Nat) : Nat → Nat → Nat
  | 0, guess => guess
  | steps + 1, guess =>
    let mean := (guess + n / guess) / 2
    if mean < guess then improveRoot n steps mean else guess

/-- A power of two that is not below the square root of `n`. -/
def firstRoot (n : Nat) : Nat :=
  Nat.pow 2 (n.log2 / 2 + 1)

/-- The whole part of the square root of a natural number. Guesses decrease, so there are no more
steps than the first guess. -/
def floorSqrt (n : Nat) : Nat :=
  improveRoot n (firstRoot n) (firstRoot n)

end Calculator
