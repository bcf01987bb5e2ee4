import Calculator.Primitive

/-!
# Primitives with angles in degrees

The registry with angles in degrees has the names of the standard one. What it does to an angle,
two standard primitives do when they are called one around the other.
-/
namespace Calculator

namespace Primitive

/-- The primitive with angles in degrees. -/
def inDegrees : Primitive → Function
  | .sin => .unary fun x => .sin x.degreesToRadians
  | .cos => .unary fun x => .cos x.degreesToRadians
  | .tan => .unary fun x => .tan x.degreesToRadians
  | .asin => .unary fun x => (Binary64.arcsin x).radiansToDegrees
  | .acos => .unary fun x => (Binary64.arccos x).radiansToDegrees
  | .atan => .unary fun x => (Binary64.arctan x).radiansToDegrees
  | p => p.function

/-- The primitives that do the same, the one around the other, if angles matter. -/
def wrapper? : Primitive → Option (Primitive × Primitive)
  | .sin => some (.sin, .radians)
  | .cos => some (.cos, .radians)
  | .tan => some (.tan, .radians)
  | .asin => some (.degrees, .asin)
  | .acos => some (.degrees, .acos)
  | .atan => some (.degrees, .atan)
  | _ => none

theorem inDegrees_of_wrapper? {p : Primitive} (h : p.wrapper? = none) :
    p.inDegrees = p.function := by
  cases p <;> first | rfl | cases h

theorem exists_unary_of_wrapper? {p outer inner : Primitive} (h : p.wrapper? = some (outer, inner)) :
    ∃ f g, outer.function = .unary f ∧ inner.function = .unary g ∧ p.inDegrees = .unary (f ∘ g) := by
  cases p <;> cases h <;> exact ⟨_, _, rfl, rfl, rfl⟩

end Primitive

namespace Registry

/-- The primitives with angles in degrees, and the names of the values that are not finite. -/
def ofDegrees : Registry where
  function? name := (Primitive.ofName? name).map Primitive.inDegrees
  constant? := nonFinite?

theorem ofDegrees_function? (p : Primitive) : ofDegrees.function? p.name = some p.inDegrees := by
  simp [ofDegrees, Primitive.ofName?_name]

end Registry

/-- The name stands for nothing. -/
structure IsUnknown (name : List Char) : Prop where
  function : Primitive.ofName? name = none
  constant : nonFinite? name = none

/-- All digits stand at the end. -/
def endsInDigits (name : List Char) : Bool :=
  (name.dropWhile (!·.isDigit)).all Char.isDigit

/-- No known name has a digit before something else. -/
theorem isUnknown_of_endsInDigits {name : List Char} (h : endsInDigits name = false) :
    IsUnknown name where
  function := by
    cases found : Primitive.ofName? name with
    | none => rfl
    | some p =>
      rw [← Primitive.name_of_ofName? found] at h
      cases p <;> revert h <;> decide
  constant := by
    unfold nonFinite?
    split
    · rename_i same
      rw [same] at h
      revert h
      decide
    · split
      · rename_i same
        rw [same] at h
        revert h
        decide
      · rfl

end Calculator
