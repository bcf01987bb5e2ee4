import Calculator.Proofs.Degrees.Lexemes
import Calculator.Proofs.Grammar.SideBySide
import Calculator.Proofs.Grammar.Writing

/-!
# Places in degrees and in radians

The two forms are read side by side, from places where the lexemes behind correspond. What comes next
is then the same in both, but for calls of angles, which are opened and closed twice in degrees.
-/
namespace Calculator

/-- Places in the two forms from which the lexemes correspond. -/
structure Alike (opened : List Bool) (c c' : Cursor) : Prop where
  afterClosing : c.afterClosing = c'.afterClosing
  rest : Wrapped opened c.rest.lexemes c'.rest.lexemes

/-- Passing an operator that comes next. -/
inductive Passing (opened : List Bool) (c c' : Cursor) : Operator → Prop
  | other {o : Operator} (opening : o ≠ .opening) (closing : o ≠ .closing)
      (further : Alike opened c.advance c'.advance) : Passing opened c c' o
  | opening (further : Alike (false :: opened) c.advance c'.advance) : Passing opened c c' .opening
  | single (once : opened.headD false = false) (further : Alike opened.tail c.advance c'.advance) :
      Passing opened c c' .closing
  | double (twice : opened.headD false = true) (again : c.advance.operator? = some .closing)
      (further : Alike opened.tail c.advance.advance c'.advance) : Passing opened c c' .closing

/-- What comes next in the two forms. -/
inductive Ahead (opened : List Bool) (c c' : Cursor) : Prop
  | ending (next : c.next? = none) (next' : c'.next? = none)
  | number (n : Numeral) (next : c.next? = some (.number n)) (next' : c'.next? = some (.number n))
      (further : Alike opened c.advance c'.advance)
  | operator {o : Operator} (next : c.operator? = some o) (next' : c'.operator? = some o)
      (passing : Passing opened c c' o)
  | name (name : List Char) (next : c.next? = some (.name name))
      (next' : c'.next? = some (.name name))
      (bare : ∀ p : Primitive, p.name = name → p.wrapper?.isSome = true →
        c.advance.operator? ≠ some .opening)
      (further : Alike opened c.advance c'.advance)
  | call {p outer inner : Primitive} (wrapper : p.wrapper? = some (outer, inner))
      (next : c.next? = some (.name outer.name)) (opens : c.advance.operator? = some .opening)
      (inside : c.advance.advance.next? = some (.name inner.name))
      (opens₂ : c.advance.advance.advance.operator? = some .opening)
      (next' : c'.next? = some (.name p.name)) (opens' : c'.advance.operator? = some .opening)
      (further : Alike (true :: opened) c.advance.advance.advance.advance c'.advance.advance)
  | unknown {name name' : List Char} (unknown : IsUnknown name) (unknown' : IsUnknown name')
      (next : c.next? = some (.name name)) (next' : c'.next? = some (.name name'))

namespace Alike

variable {opened : List Bool} {c c' : Cursor}

theorem ahead (h : Alike opened c c') : Ahead opened c c' := by
  obtain ⟨-, rest⟩ := h
  have behind : ∀ {c₁ c₂ : Cursor} {l l' : Lexeme} {opened : List Bool} {d r : List Lexeme},
      c₁.next? = some l → c₂.next? = some l' →
      decide (l = .operator .closing) = decide (l' = .operator .closing) →
      c₁.advance.rest.lexemes = d → c₂.advance.rest.lexemes = r → Wrapped opened d r →
      Alike opened c₁.advance c₂.advance := by
    intro c₁ c₂ l l' opened d r next next' same rfl rfl further
    exact ⟨by rw [Cursor.afterClosing_advance next, Cursor.afterClosing_advance next', same], further⟩
  generalize left : c.rest.lexemes = d at rest
  generalize right : c'.rest.lexemes = r at rest
  cases rest with
  | ending => exact .ending (Cursor.atEnd_of_lexemes left) (Cursor.atEnd_of_lexemes right)
  | number n further =>
    obtain ⟨next, left⟩ := Cursor.next?_of_lexemes left
    obtain ⟨next', right⟩ := Cursor.next?_of_lexemes right
    exact .number n next next' (behind next next' rfl left right further)
  | operator o opening closing further =>
    obtain ⟨next, left⟩ := Cursor.next?_of_lexemes left
    obtain ⟨next', right⟩ := Cursor.next?_of_lexemes right
    exact .operator (Cursor.operator?_of_next? next) (Cursor.operator?_of_next? next')
      (.other opening closing (behind next next' rfl left right further))
  | name name bare further =>
    obtain ⟨next, left⟩ := Cursor.next?_of_lexemes left
    obtain ⟨next', right⟩ := Cursor.next?_of_lexemes right
    refine .name name next next' (fun p same angular => ?_) (behind next next' rfl left right further)
    exact Cursor.operator?_ne_of_lexemes left (bare p same angular)
  | opening further =>
    obtain ⟨next, left⟩ := Cursor.next?_of_lexemes left
    obtain ⟨next', right⟩ := Cursor.next?_of_lexemes right
    exact .operator (Cursor.operator?_of_next? next) (Cursor.operator?_of_next? next')
      (.opening (behind next next' rfl left right further))
  | call wrapper further =>
    obtain ⟨next, left⟩ := Cursor.next?_of_lexemes left
    obtain ⟨opens, left⟩ := Cursor.next?_of_lexemes left
    obtain ⟨inside, left⟩ := Cursor.next?_of_lexemes left
    obtain ⟨opens₂, left⟩ := Cursor.next?_of_lexemes left
    obtain ⟨next', right⟩ := Cursor.next?_of_lexemes right
    obtain ⟨opens', right⟩ := Cursor.next?_of_lexemes right
    exact .call wrapper next (Cursor.operator?_of_next? opens) inside
      (Cursor.operator?_of_next? opens₂) next' (Cursor.operator?_of_next? opens')
      (behind opens₂ opens' rfl left right further)
  | closing once further =>
    obtain ⟨next, left⟩ := Cursor.next?_of_lexemes left
    obtain ⟨next', right⟩ := Cursor.next?_of_lexemes right
    exact .operator (Cursor.operator?_of_next? next) (Cursor.operator?_of_next? next')
      (.single once (behind next next' rfl left right further))
  | double further =>
    obtain ⟨next, left⟩ := Cursor.next?_of_lexemes left
    obtain ⟨again, left⟩ := Cursor.next?_of_lexemes left
    obtain ⟨next', right⟩ := Cursor.next?_of_lexemes right
    exact .operator (Cursor.operator?_of_next? next) (Cursor.operator?_of_next? next')
      (.double rfl (Cursor.operator?_of_next? again) (behind again next' rfl left right further))
  | unknown unknown unknown' d r =>
    obtain ⟨next, -⟩ := Cursor.next?_of_lexemes left
    obtain ⟨next', -⟩ := Cursor.next?_of_lexemes right
    exact .unknown unknown unknown' next next'

theorem operator?_eq (h : Alike opened c c') : c.operator? = c'.operator? := by
  cases h.ahead with
  | ending next next' =>
    rw [Cursor.operator?_of_next?_none next, Cursor.operator?_of_next?_none next']
  | number n next next' =>
    rw [Cursor.operator?_of_next?_number next, Cursor.operator?_of_next?_number next']
  | operator next next' => rw [next, next']
  | name _ next next' | call _ next _ _ _ next' | unknown _ _ next next' =>
    rw [Cursor.operator?_of_next?_name next, Cursor.operator?_of_next?_name next']

theorem startsFactor_eq (h : Alike opened c c') : c.startsFactor = c'.startsFactor := by
  unfold Cursor.startsFactor
  cases h.ahead with
  | ending next next' => rw [next, next']
  | number n next next' => rw [next, next', h.afterClosing]
  | @operator o next next' =>
    rw [Cursor.next?_of_operator? next, Cursor.next?_of_operator? next']
    cases o <;> rfl
  | name _ next next' | call _ next _ _ _ next' | unknown _ _ next next' => rw [next, next']

theorem atEnd_iff (h : Alike opened c c') : c.AtEnd ↔ c'.AtEnd := by
  unfold Cursor.AtEnd
  cases h.ahead with
  | ending next next' => rw [next, next']
  | operator next next' =>
    simp [Cursor.next?_of_operator? next, Cursor.next?_of_operator? next']
  | number _ next next' | name _ next next' | call _ next _ _ _ next' | unknown _ _ next next' =>
    simp [next, next']

theorem startsAlone_iff (h : Alike opened c c') : c.StartsAlone ↔ c'.StartsAlone := by
  rw [← Cursor.startsFactor_iff, ← Cursor.startsFactor_iff, h.startsFactor_eq]

theorem passing (h : Alike opened c c') {o : Operator} (next : c.operator? = some o) :
    Passing opened c c' o := by
  have present : c.operator? ≠ none := by
    rw [next]
    exact Option.some_ne_none o
  cases h.ahead with
  | operator found _ passing =>
    rw [Option.some.inj (next.symm.trans found)]
    exact passing
  | ending found => exact absurd (Cursor.operator?_of_next?_none found) present
  | number n found => exact absurd (Cursor.operator?_of_next?_number found) present
  | name _ found | call _ found | unknown _ _ found =>
    exact absurd (Cursor.operator?_of_next?_name found) present

theorem advance (h : Alike opened c c') {o : Operator} (next : c.operator? = some o)
    (opening : o ≠ .opening) (closing : o ≠ .closing) : Alike opened c.advance c'.advance := by
  cases h.passing next with
  | other _ _ further => exact further
  | opening => exact absurd rfl opening
  | single | double => exact absurd rfl closing

theorem advance_opening (h : Alike opened c c') (next : c.operator? = some .opening) :
    Alike (false :: opened) c.advance c'.advance := by
  cases h.passing next with
  | other other => exact absurd rfl other
  | opening further => exact further

end Alike

/-- Places behind the parenthesis that closes a call; in degrees a call of an angle is then to be
closed once more. -/
def Closed (angular : Bool) (opened : List Bool) (c c' : Cursor) : Prop :=
  match angular with
  | false => Alike opened c c'
  | true => c.operator? = some .closing ∧ Alike opened c.advance c'

theorem Alike.advance_closing {angular : Bool} {opened : List Bool} {c c' : Cursor}
    (h : Alike (angular :: opened) c c') (next : c.operator? = some .closing) :
    Closed angular opened c.advance c'.advance := by
  cases h.passing next with
  | other _ other => exact absurd rfl other
  | single once further =>
    cases once
    exact further
  | double twice again further =>
    cases twice
    exact ⟨again, further⟩

theorem Alike.expect_closing {angular : Bool} {opened : List Bool} {c c' : Cursor}
    (h : Alike (angular :: opened) c c') :
    Matches (Closed angular opened) (c.expect .closing) (c'.expect .closing) := by
  unfold Cursor.expect
  rw [← h.operator?_eq]
  split
  · rename_i next
    exact .value (h.advance_closing next)
  · exact .fault rfl

/-- Results with the same value, at places from which the lexemes correspond. -/
def Same {α : Type} (opened : List Bool) (result result' : α × Cursor) : Prop :=
  result.1 = result'.1 ∧ Alike opened result.2 result'.2

/-- The same arguments, with their closing parenthesis passed. -/
def SameArguments (angular : Bool) (opened : List Bool)
    (result result' : List Binary64 × Cursor) : Prop :=
  result.1 = result'.1 ∧ Closed angular opened result.2 result'.2

end Calculator
