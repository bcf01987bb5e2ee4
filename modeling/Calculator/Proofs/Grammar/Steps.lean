import Calculator.Proofs.Grammar.Derivation

/-!
# Steps of the rules

What each rule does, said by the token that comes next. Every statement about the rules is derived
from these steps and from the fact that a nested operand is read by the same rules with one level
less.
-/
namespace Calculator

theorem Cursor.expect_of_operator? {c : Cursor} {operator : Operator}
    (h : c.operator? = some operator) : c.expect operator = .ok c.advance :=
  if_pos h

theorem Cursor.expect_success {c c' : Cursor} {operator : Operator}
    (h : c.expect operator = .ok c') : c.operator? = some operator ∧ c' = c.advance := by
  unfold expect at h
  split at h
  · rename_i found
    cases h
    exact ⟨found, rfl⟩
  · cases h

theorem Cursor.rest_of_next?_none {c : Cursor} (h : c.next? = none) :
    ∃ position, c.rest = .finish position := by
  unfold next? at h
  split at h
  · rename_i position found
    exact ⟨position, found⟩
  · cases h

/-- A sign, the operator between factors, or neither and no factor by itself. -/
theorem Cursor.factor_cases (c : Cursor) :
    (∃ link : Link, ∃ operator, link.symbol? = some operator ∧ c.operator? = some operator) ∨
      c.StartsAlone ∨
      (∀ link : Link, ∀ operator, link.symbol? = some operator → c.operator? ≠ some operator) ∧
        ¬ c.StartsAlone := by
  by_cases joined : ∃ link : Link, ∃ operator, link.symbol? = some operator ∧
      c.operator? = some operator
  · exact .inl joined
  · by_cases start : c.StartsAlone
    · exact .inr (.inl start)
    · exact .inr (.inr ⟨fun link operator written found =>
        joined ⟨link, operator, written, found⟩, start⟩)

namespace Rules

section Level

variable (registry : Registry) (inner : Rules)

theorem primary_of_number {c : Cursor} {numeral : Numeral} (h : c.next? = some (.number numeral)) :
    primary registry inner c = .ok (numeral.value, c.advance) := by
  obtain ⟨position, found⟩ := Cursor.rest_of_next? h
  unfold primary
  rw [found]

theorem primary_of_name {c : Cursor} {name : List Char} (h : c.next? = some (.name name)) :
    primary registry inner c = named registry inner name c.advance := by
  obtain ⟨position, found⟩ := Cursor.rest_of_next? h
  unfold primary
  rw [found]

theorem primary_of_opening {c : Cursor} (h : c.operator? = some .opening) :
    primary registry inner c = (do
      let (value, c) ← inner.expression c.advance
      let c ← c.expect .closing
      .ok (value, c)) := by
  obtain ⟨position, found⟩ := Cursor.rest_of_next? (Cursor.next?_of_operator? h)
  unfold primary
  rw [found]

/-- No operand starts with an operator other than an opening parenthesis. -/
theorem primary_of_operator {c : Cursor} {operator : Operator} (h : c.operator? = some operator)
    (different : operator ≠ .opening) :
    ∃ position, primary registry inner c =
      .error (.unexpectedLexeme (.operator operator) position) := by
  obtain ⟨position, found⟩ := Cursor.rest_of_next? (Cursor.next?_of_operator? h)
  refine ⟨position, ?_⟩
  unfold primary
  rw [found]
  cases operator with
  | opening => exact absurd rfl different
  | _ => rfl

theorem primary_of_end {c : Cursor} (h : c.next? = none) :
    ∃ position, primary registry inner c = .error (.unexpectedEnd position) := by
  obtain ⟨position, found⟩ := Cursor.rest_of_next?_none h
  refine ⟨position, ?_⟩
  unfold primary
  rw [found]

theorem signed_of_sign {c : Cursor} {sign : Sign} (h : c.operator? = some sign.symbol) :
    signed registry inner c = (do
      let (value, c) ← inner.unary c.advance
      .ok (sign.applyTo value, c)) := by
  unfold signed
  rw [h]
  cases sign with
  | negative => rfl
  | positive =>
    simp only [Sign.symbol, Sign.applyTo]
    cases inner.unary c.advance with
    | error fault => rfl
    | ok result => rfl

theorem signed_of_no_sign {c : Cursor} (h : ∀ sign : Sign, c.operator? ≠ some sign.symbol) :
    signed registry inner c = primary registry inner c := by
  unfold signed
  split
  · rename_i found
    exact absurd found (h .negative)
  · rename_i found
    exact absurd found (h .positive)
  · rfl

theorem multiplicative_of_link {link : Link} {operator : Operator}
    (written : link.symbol? = some operator) (x y : Binary64) :
    multiplicative operator x y = Syntax.readLink link x y := by
  cases link <;> cases written <;> rfl

theorem factors_of_link {c : Cursor} {link : Link} {operator : Operator}
    (written : link.symbol? = some operator) (h : c.operator? = some operator) (bound : Nat)
    (left : Binary64) :
    factors registry inner (bound + 1) left c = (do
      let (right, c) ← raised registry inner c.advance
      let value ← Syntax.readLink link left right
      factors registry inner bound value c) := by
  have joins : c.operator?.filter isMultiplicative = some operator := by
    rw [h]
    cases link <;> cases written <;> rfl
  rw [factors, joins]
  simp only [multiplicative_of_link written]

theorem factors_of_startsAlone {c : Cursor} (h : c.StartsAlone) (bound : Nat) (left : Binary64) :
    factors registry inner (bound + 1) left c = (do
      let (right, c) ← raised registry inner c
      let value ← Syntax.readLink .implicit left right
      factors registry inner bound value c) := by
  have joins : c.operator?.filter isMultiplicative = none := by
    cases found : c.operator? with
    | none => rfl
    | some operator =>
      cases h with
      | opening opening =>
        rw [opening] at found
        cases found
        rfl
      | name next =>
        rw [Cursor.operator?_of_next?_name next] at found
        cases found
      | number next behind =>
        rw [Cursor.operator?_of_next?_number next] at found
        cases found
  rw [factors, joins]
  simp only [(Cursor.startsFactor_iff c).2 h, if_true]
  rfl

theorem filter_isMultiplicative_eq_none {c : Cursor}
    (h : ∀ link : Link, ∀ operator, link.symbol? = some operator → c.operator? ≠ some operator) :
    c.operator?.filter isMultiplicative = none := by
  cases found : c.operator? with
  | none => rfl
  | some operator =>
    cases operator with
    | times => exact absurd found (h .times _ rfl)
    | divide => exact absurd found (h .divide _ rfl)
    | modulo => exact absurd found (h .modulo _ rfl)
    | _ => rfl

theorem factors_of_neither {c : Cursor}
    (noLink : ∀ link : Link, ∀ operator, link.symbol? = some operator →
      c.operator? ≠ some operator)
    (noStart : ¬ c.StartsAlone) (bound : Nat) (left : Binary64) :
    factors registry inner bound left c = .ok (left, c) := by
  cases bound with
  | zero => rfl
  | succ bound =>
    have still : c.startsFactor = false := by
      rw [← Bool.not_eq_true, Cursor.startsFactor_iff]
      exact noStart
    rw [factors, filter_isMultiplicative_eq_none noLink]
    simp [still]

theorem terms_of_sign {c : Cursor} {sign : Sign} (h : c.operator? = some sign.symbol) (bound : Nat)
    (left : Binary64) :
    terms registry inner (bound + 1) left c = (do
      let (right, c) ← term registry inner c.advance
      terms registry inner bound (sign.combine left right) c) := by
  rw [terms, h]
  cases sign <;> rfl

theorem terms_of_no_sign {c : Cursor} (h : ∀ sign : Sign, c.operator? ≠ some sign.symbol)
    (bound : Nat) (left : Binary64) : terms registry inner bound left c = .ok (left, c) := by
  have joins : c.operator?.filter isAdditive = none := by
    cases found : c.operator? with
    | none => rfl
    | some operator =>
      cases operator with
      | plus => exact absurd found (h .positive)
      | minus => exact absurd found (h .negative)
      | _ => rfl
  cases bound with
  | zero => rfl
  | succ bound => rw [terms, joins]

theorem moreArguments_of_comma {c : Cursor} (h : c.operator? = some .comma) (bound : Nat) :
    moreArguments registry inner (bound + 1) c = (do
      let (value, c) ← sum registry inner c.advance
      let (values, c) ← moreArguments registry inner bound c
      .ok (value :: values, c)) := by
  rw [moreArguments, if_pos h]

theorem moreArguments_of_no_comma {c : Cursor} (h : c.operator? ≠ some .comma) (bound : Nat) :
    moreArguments registry inner bound c = .ok ([], c) := by
  cases bound with
  | zero => rfl
  | succ bound => rw [moreArguments, if_neg h]

end Level

/-- The rules for what nests inside, with a number of levels left. -/
def inside (registry : Registry) (limit : Nat) : Nat → Rules
  | 0 => refuse limit
  | levels + 1 => nested registry limit levels

theorem nested_eq (registry : Registry) (limit levels : Nat) :
    nested registry limit levels = around registry (inside registry limit levels) := by
  cases levels <;> rfl

variable (registry : Registry) (limit levels : Nat) (c : Cursor)

theorem inside_expression :
    (inside registry limit levels).expression c =
      Syntax.descend limit (fun fewer => sum registry (inside registry limit fewer) c) levels := by
  cases levels with
  | zero => rfl
  | succ fewer =>
    rw [inside, nested_eq]
    rfl

theorem inside_arguments :
    (inside registry limit levels).arguments c =
      Syntax.descend limit (fun fewer => argumentList registry (inside registry limit fewer) c)
        levels := by
  cases levels with
  | zero => rfl
  | succ fewer =>
    rw [inside, nested_eq]
    rfl

theorem inside_power :
    (inside registry limit levels).power c =
      Syntax.descend limit (fun fewer => raised registry (inside registry limit fewer) c)
        levels := by
  cases levels with
  | zero => rfl
  | succ fewer =>
    rw [inside, nested_eq]
    rfl

theorem inside_unary :
    (inside registry limit levels).unary c =
      Syntax.descend limit (fun fewer => signed registry (inside registry limit fewer) c)
        levels := by
  cases levels with
  | zero => rfl
  | succ fewer =>
    rw [inside, nested_eq]
    rfl

end Rules

end Calculator
