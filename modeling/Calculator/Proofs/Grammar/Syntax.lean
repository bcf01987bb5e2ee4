import Calculator.Grammar
import Calculator.Proofs.Result

/-!
# Sentence trees

A tree records how a sentence of the grammar is put together. Its value does not depend on how a
sentence is read: names are looked up in a registry, and a missing name, a wrong count of arguments
or a zero divisor leaves the tree without a value. Its depth counts parentheses, calls, signs and
exponents on one path.
Reading meets faults in order, so a tree also has an evaluation from left to right with a number of
levels to spend; it gives the value exactly if there is one and the levels suffice.
-/
namespace Calculator

/-- The operator that a sign is written as. -/
def Sign.symbol : Sign → Operator
  | .positive => .plus
  | .negative => .minus

/-- How two factors of a product are joined. -/
inductive Link where
  | times | divide | modulo | implicit
  deriving DecidableEq, Repr

/-- The operator between two factors; none between adjacent ones. -/
def Link.symbol? : Link → Option Operator
  | .times => some .times
  | .divide => some .divide
  | .modulo => some .modulo
  | .implicit => none

inductive Syntax where
  | number (numeral : Numeral)
  | constant (name : List Char)
  | group (inner : Syntax)
  | call (name : List Char) (arguments : List Syntax)
  | signed (sign : Sign) (operand : Syntax)
  | power (base exponent : Syntax)
  | product (link : Link) (left right : Syntax)
  | sum (sign : Sign) (left right : Syntax)

/-- A number after a sign. -/
def Sign.applyTo : Sign → Binary64 → Binary64
  | .positive, x => x
  | .negative, x => x.neg

/-- A sum or a difference. -/
def Sign.combine : Sign → Binary64 → Binary64 → Binary64
  | .positive, x, y => x + y
  | .negative, x, y => x - y

/-- A product, a quotient or a remainder; none with a zero divisor. -/
def Link.combine? : Link → Binary64 → Binary64 → Option Binary64
  | .times, x, y | .implicit, x, y => some (x * y)
  | .divide, x, y => if y.isZero then none else some (x / y)
  | .modulo, x, y => if y.isZero then none else some (x % y)

namespace Syntax

mutual

/-- Levels of nesting on the deepest path. -/
def depth : Syntax → Nat
  | .number _ => 0
  | .constant _ => 0
  | .group inner => inner.depth + 1
  | .call _ arguments => depthAll arguments + 1
  | .signed _ operand => operand.depth + 1
  | .power base exponent => max base.depth (exponent.depth + 1)
  | .product _ left right => max left.depth right.depth
  | .sum _ left right => max left.depth right.depth

def depthAll : List Syntax → Nat
  | [] => 0
  | first :: rest => max first.depth (depthAll rest)

end

/-- The value of a name that stands alone. A function is no value. -/
def nameValue? (registry : Registry) (name : List Char) : Option Binary64 :=
  match registry.function? name with
  | some _ => none
  | none => registry.constant? name

mutual

/-- The value of a tree over a registry. -/
def value? (registry : Registry) : Syntax → Option Binary64
  | .number numeral => some numeral.value
  | .constant name => nameValue? registry name
  | .group inner => inner.value? registry
  | .call name arguments => do
    let function ← registry.function? name
    let values ← valueAll? registry arguments
    function.valueAt? values
  | .signed sign operand => (operand.value? registry).map sign.applyTo
  | .power base exponent => do
    let x ← base.value? registry
    let y ← exponent.value? registry
    some (x.power y)
  | .product link left right => do
    let x ← left.value? registry
    let y ← right.value? registry
    link.combine? x y
  | .sum sign left right => do
    let x ← left.value? registry
    let y ← right.value? registry
    some (sign.combine x y)

def valueAll? (registry : Registry) : List Syntax → Option (List Binary64)
  | [] => some []
  | first :: rest => do
    let value ← first.value? registry
    let values ← valueAll? registry rest
    some (value :: values)

end

/-- Spends one level of nesting, and is refused if none is left. -/
def descend {α : Type} (limit : Nat) (inner : Nat → Except Fault α) : Nat → Except Fault α
  | 0 => .error (.nestedTooDeep limit)
  | levels + 1 => inner levels

/-- A name that stands alone, as it is read. -/
def readName (registry : Registry) (name : List Char) : Except Fault Binary64 :=
  match registry.function? name with
  | some _ => .error (.functionAsValue name)
  | none =>
    match registry.constant? name with
    | some value => .ok value
    | none => .error (.unknownName name)

/-- A function at its arguments, as it is read. -/
def applyAll (name : List Char) (function : Function) (values : List Binary64) :
    Except Fault Binary64 :=
  match function.valueAt? values with
  | some value => .ok value
  | none => .error (.wrongCount name function.arity values.length)

/-- Two factors, as they are read. -/
def readLink (link : Link) (x y : Binary64) : Except Fault Binary64 :=
  match link with
  | .times | .implicit => .ok (x * y)
  | .divide => if y.isZero then .error (.zeroDivisor x .divide) else .ok (x / y)
  | .modulo => if y.isZero then .error (.zeroDivisor x .modulo) else .ok (x % y)

mutual

/-- The value or the first fault from left to right, with a number of levels to spend out of a
limit. -/
def evaluate (registry : Registry) (limit : Nat) : Syntax → Nat → Except Fault Binary64
  | .number numeral, _ => .ok numeral.value
  | .constant name, _ => readName registry name
  | .group inner, levels => descend limit (inner.evaluate registry limit) levels
  | .call name arguments, levels =>
    match registry.function? name with
    | some function => do
      let values ← descend limit (evaluateAll registry limit arguments) levels
      applyAll name function values
    | none =>
      match registry.constant? name with
      | some _ => .error (.notFunction name)
      | none => .error (.unknownName name)
  | .signed sign operand, levels => do
    let x ← descend limit (operand.evaluate registry limit) levels
    .ok (sign.applyTo x)
  | .power base exponent, levels => do
    let x ← base.evaluate registry limit levels
    let y ← descend limit (exponent.evaluate registry limit) levels
    .ok (x.power y)
  | .product link left right, levels => do
    let x ← left.evaluate registry limit levels
    let y ← right.evaluate registry limit levels
    readLink link x y
  | .sum sign left right, levels => do
    let x ← left.evaluate registry limit levels
    let y ← right.evaluate registry limit levels
    .ok (sign.combine x y)

def evaluateAll (registry : Registry) (limit : Nat) :
    List Syntax → Nat → Except Fault (List Binary64)
  | [], _ => .ok []
  | first :: rest, levels => do
    let value ← first.evaluate registry limit levels
    let values ← evaluateAll registry limit rest levels
    .ok (value :: values)

end

/-- A value that takes some levels to read. -/
def within {α : Type} (limit depth : Nat) (value : α) (levels : Nat) : Except Fault α :=
  if depth ≤ levels then .ok value else .error (.nestedTooDeep limit)

theorem within_mono {α : Type} (limit : Nat) (value : α) {depth levels : Nat} (h : depth ≤ levels) :
    within limit depth value levels = .ok value :=
  if_pos h

theorem descend_within {α : Type} {limit depth : Nat} {value : α} {inner : Nat → Except Fault α}
    (h : ∀ levels, inner levels = within limit depth value levels) (levels : Nat) :
    descend limit inner levels = within limit (depth + 1) value levels := by
  cases levels with
  | zero => simp [descend, within]
  | succ levels => simp [descend, within, h]

theorem bind_within {α β : Type} {limit d₁ d₂ levels : Nat} {x : α} {y : β}
    {first : Except Fault α} {next : α → Except Fault β} (hx : first = within limit d₁ x levels)
    (hy : next x = within limit d₂ y levels) :
    (first >>= next) = within limit (max d₁ d₂) y levels := by
  subst hx
  unfold within at *
  by_cases h₁ : d₁ ≤ levels
  · rw [if_pos h₁, ok_bind, hy]
    by_cases h₂ : d₂ ≤ levels
    · rw [if_pos h₂, if_pos (Nat.max_le.2 ⟨h₁, h₂⟩)]
    · rw [if_neg h₂, if_neg (fun h => h₂ (Nat.max_le.1 h).2)]
  · rw [if_neg h₁, if_neg (fun h => h₁ (Nat.max_le.1 h).1)]
    rfl

theorem bind_within_last {α β : Type} {limit depth levels : Nat} {x : α} {y : β}
    {first : Except Fault α} {next : α → Except Fault β} (hx : first = within limit depth x levels)
    (hy : next x = .ok y) : (first >>= next) = within limit depth y levels := by
  subst hx
  unfold within
  split
  · exact hy
  · rfl

theorem readName_of_nameValue? {registry : Registry} {name : List Char} {x : Binary64}
    (h : nameValue? registry name = some x) : readName registry name = .ok x := by
  unfold nameValue? at h
  unfold readName
  split at h
  · cases h
  · rename_i noFunction
    simp [h]

theorem readLink_of_combine? {link : Link} {x y z : Binary64} (h : link.combine? x y = some z) :
    readLink link x y = .ok z := by
  cases link <;> simp only [Link.combine?] at h <;> simp only [readLink]
  case times => simpa using h
  case implicit => simpa using h
  all_goals
    split at h
    · cases h
    · rename_i notZero
      rw [if_neg notZero]
      simpa using h

mutual

/-- A tree with a value is read to that value if there are levels enough, and else is refused for
its depth. -/
theorem evaluate_of_value? (registry : Registry) (limit : Nat) :
    ∀ (t : Syntax) {v : Binary64}, t.value? registry = some v → ∀ levels,
      t.evaluate registry limit levels = within limit t.depth v levels
  | .number numeral, v, h, levels => by
    simp only [value?, Option.some.injEq] at h
    rw [evaluate, depth, within_mono limit v (Nat.zero_le levels), h]
  | .constant name, v, h, levels => by
    rw [evaluate, depth, within_mono limit v (Nat.zero_le levels)]
    exact readName_of_nameValue? h
  | .group inner, v, h, levels => by
    rw [evaluate, depth]
    exact descend_within (evaluate_of_value? registry limit inner h) levels
  | .call name arguments, v, h, levels => by
    obtain ⟨function, found, h⟩ := Option.bind_eq_some_iff.1 h
    obtain ⟨values, hvalues, h⟩ := Option.bind_eq_some_iff.1 h
    have inner := descend_within (evaluateAll_of_valueAll? registry limit arguments hvalues) levels
    have last : applyAll name function values = .ok v := by
      rw [applyAll, h]
    rw [evaluate, found, depth]
    exact bind_within_last inner last
  | .signed sign operand, v, h, levels => by
    obtain ⟨x, hx, rfl⟩ := Option.map_eq_some_iff.1 h
    have inner := descend_within (evaluate_of_value? registry limit operand hx) levels
    rw [evaluate, depth]
    exact bind_within_last inner rfl
  | .power base exponent, v, h, levels => by
    obtain ⟨x, hx, h⟩ := Option.bind_eq_some_iff.1 h
    obtain ⟨y, hy, h⟩ := Option.bind_eq_some_iff.1 h
    cases h
    have first := evaluate_of_value? registry limit base hx levels
    have second := descend_within (evaluate_of_value? registry limit exponent hy) levels
    rw [evaluate, depth]
    exact bind_within first (bind_within_last second rfl)
  | .product link left right, v, h, levels => by
    obtain ⟨x, hx, h⟩ := Option.bind_eq_some_iff.1 h
    obtain ⟨y, hy, h⟩ := Option.bind_eq_some_iff.1 h
    have first := evaluate_of_value? registry limit left hx levels
    have second := evaluate_of_value? registry limit right hy levels
    rw [evaluate, depth]
    exact bind_within first (bind_within_last second (readLink_of_combine? h))
  | .sum sign left right, v, h, levels => by
    obtain ⟨x, hx, h⟩ := Option.bind_eq_some_iff.1 h
    obtain ⟨y, hy, h⟩ := Option.bind_eq_some_iff.1 h
    cases h
    have first := evaluate_of_value? registry limit left hx levels
    have second := evaluate_of_value? registry limit right hy levels
    rw [evaluate, depth]
    exact bind_within first (bind_within_last second rfl)

theorem evaluateAll_of_valueAll? (registry : Registry) (limit : Nat) :
    ∀ (ts : List Syntax) {vs : List Binary64}, valueAll? registry ts = some vs → ∀ levels,
      evaluateAll registry limit ts levels = within limit (depthAll ts) vs levels
  | [], vs, h, levels => by
    simp only [valueAll?, Option.some.injEq] at h
    rw [evaluateAll, depthAll, within_mono limit vs (Nat.zero_le levels), h]
  | first :: rest, vs, h, levels => by
    obtain ⟨x, hx, h⟩ := Option.bind_eq_some_iff.1 h
    obtain ⟨xs, hxs, h⟩ := Option.bind_eq_some_iff.1 h
    cases h
    have head := evaluate_of_value? registry limit first hx levels
    have tail := evaluateAll_of_valueAll? registry limit rest hxs levels
    rw [evaluateAll, depthAll]
    exact bind_within head (bind_within_last tail rfl)

end

theorem descend_success {α : Type} {limit levels : Nat} {inner : Nat → Except Fault α} {x : α}
    (h : descend limit inner levels = .ok x) : ∃ fewer, inner fewer = .ok x := by
  cases levels with
  | zero => cases h
  | succ fewer => exact ⟨fewer, h⟩

theorem nameValue?_of_readName {registry : Registry} {name : List Char} {x : Binary64}
    (h : readName registry name = .ok x) : nameValue? registry name = some x := by
  unfold readName at h
  unfold nameValue?
  split at h
  · cases h
  · split at h
    · rename_i found
      cases h
      exact found
    · cases h

theorem valueAt?_of_applyAll {name : List Char} {function : Function} {values : List Binary64}
    {x : Binary64} (h : applyAll name function values = .ok x) :
    function.valueAt? values = some x := by
  unfold applyAll at h
  split at h
  · rename_i found
    cases h
    exact found
  · cases h

theorem combine?_of_readLink {link : Link} {x y z : Binary64} (h : readLink link x y = .ok z) :
    link.combine? x y = some z := by
  cases link <;> simp only [readLink] at h <;> simp only [Link.combine?]
  case times => simpa using h
  case implicit => simpa using h
  all_goals
    split at h
    · cases h
    · rename_i notZero
      rw [if_neg notZero]
      simpa using h

mutual

/-- What is read is the value. -/
theorem value?_of_evaluate (registry : Registry) (limit : Nat) :
    ∀ (t : Syntax) {v : Binary64} {levels : Nat},
      t.evaluate registry limit levels = .ok v → t.value? registry = some v
  | .number numeral, v, levels, h => by
    rw [evaluate] at h
    cases h
    rfl
  | .constant name, v, levels, h => by
    rw [evaluate] at h
    exact nameValue?_of_readName h
  | .group inner, v, levels, h => by
    rw [evaluate] at h
    obtain ⟨fewer, h⟩ := descend_success h
    exact value?_of_evaluate registry limit inner h
  | .call name arguments, v, levels, h => by
    rw [evaluate] at h
    split at h
    · rename_i function found
      obtain ⟨values, h, applied⟩ := bind_success h
      obtain ⟨fewer, h⟩ := descend_success h
      have inner := valueAll?_of_evaluateAll registry limit arguments h
      rw [value?, found, inner]
      exact valueAt?_of_applyAll applied
    · split at h <;> cases h
  | .signed sign operand, v, levels, h => by
    rw [evaluate] at h
    obtain ⟨x, hx, last⟩ := bind_success h
    obtain ⟨fewer, hx⟩ := descend_success hx
    cases last
    rw [value?, value?_of_evaluate registry limit operand hx]
    rfl
  | .power base exponent, v, levels, h => by
    rw [evaluate] at h
    obtain ⟨x, hx, h⟩ := bind_success h
    obtain ⟨y, hy, last⟩ := bind_success h
    obtain ⟨fewer, hy⟩ := descend_success hy
    cases last
    rw [value?, value?_of_evaluate registry limit base hx,
      value?_of_evaluate registry limit exponent hy]
    rfl
  | .product link left right, v, levels, h => by
    rw [evaluate] at h
    obtain ⟨x, hx, h⟩ := bind_success h
    obtain ⟨y, hy, last⟩ := bind_success h
    rw [value?, value?_of_evaluate registry limit left hx,
      value?_of_evaluate registry limit right hy]
    exact combine?_of_readLink last
  | .sum sign left right, v, levels, h => by
    rw [evaluate] at h
    obtain ⟨x, hx, h⟩ := bind_success h
    obtain ⟨y, hy, last⟩ := bind_success h
    cases last
    rw [value?, value?_of_evaluate registry limit left hx,
      value?_of_evaluate registry limit right hy]
    rfl

theorem valueAll?_of_evaluateAll (registry : Registry) (limit : Nat) :
    ∀ (ts : List Syntax) {vs : List Binary64} {levels : Nat},
      evaluateAll registry limit ts levels = .ok vs → valueAll? registry ts = some vs
  | [], vs, levels, h => by
    rw [evaluateAll] at h
    cases h
    rfl
  | first :: rest, vs, levels, h => by
    rw [evaluateAll] at h
    obtain ⟨x, hx, h⟩ := bind_success h
    obtain ⟨xs, hxs, last⟩ := bind_success h
    cases last
    rw [valueAll?, value?_of_evaluate registry limit first hx,
      valueAll?_of_evaluateAll registry limit rest hxs]
    rfl

end

/-- A tree is read to a value exactly if it has the value and is not too deep. -/
theorem evaluate_eq_ok_iff (registry : Registry) (limit levels : Nat) (t : Syntax) (v : Binary64) :
    t.evaluate registry limit levels = .ok v ↔ t.value? registry = some v ∧ t.depth ≤ levels := by
  constructor
  · intro h
    have value := value?_of_evaluate registry limit t h
    rw [evaluate_of_value? registry limit t value, within] at h
    refine ⟨value, ?_⟩
    split at h
    · assumption
    · cases h
  · rintro ⟨value, fits⟩
    rw [evaluate_of_value? registry limit t value, within_mono limit v fits]

end Syntax

end Calculator
