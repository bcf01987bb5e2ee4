import Calculator.Proofs.Surface.Expression

/-!
# Constants, the last answer and powers replaced

The first pass over the text of an expression acts on each of its parts by itself: a part is followed
by a parenthesis or by nothing, and it starts after a boundary.
-/
namespace Calculator

/-- What follows a part: a parenthesis or nothing. -/
inductive Separated : List Char → Prop
  | ending : Separated []
  | opening (rest : List Char) : Separated ('(' :: rest)
  | closing (rest : List Char) : Separated (')' :: rest)

theorem separated_parenthesized (w rest : List Char) : Separated (parenthesized w ++ rest) :=
  .opening _

/-- The characters at which something is replaced. -/
def replacedStarts : List Char :=
  ['π', '^', 'e', 'a']

theorem Digit.char_notMem {others : List Char} (h : ∀ c ∈ others, digitValue? c = none)
    (d : Digit) : d.char ∉ others :=
  fun member => Digit.char_ne (h _ member) d rfl

/-! ## Substitution -/

section Substitution

variable {answer : Binary64}

theorem standsAlone_iff {word : List Char} {before : Option Char} {text : List Char} :
    standsAlone word before text = true ↔
      isBoundary before = true ∧ ∃ behind, text = word ++ behind ∧
        isBoundary behind.head? = true := by
  rw [standsAlone, Bool.and_eq_true, Bool.and_eq_true, List.isPrefixOf_iff_prefix]
  constructor
  · rintro ⟨⟨boundary, behind, rfl⟩, ends⟩
    rw [List.drop_left] at ends
    exact ⟨boundary, behind, rfl, ends⟩
  · rintro ⟨boundary, behind, rfl, ends⟩
    rw [List.drop_left]
    exact ⟨⟨boundary, behind, rfl⟩, ends⟩

/-- A character stays where nothing that is replaced starts. -/
theorem substitute_cons {c : Char} {before : Option Char} {rest : List Char} (pi : c ≠ 'π')
    (power : c ≠ '^') (euler : standsAlone ['e'] before (c :: rest) = false)
    (last : standsAlone ['a', 'n', 's'] before (c :: rest) = false) :
    substitute answer 0 before (c :: rest) = c :: substitute answer 0 (some c) rest := by
  rw [substitute, if_neg pi, if_neg power, euler, last]
  rfl

theorem substitute_pi (before : Option Char) (rest : List Char) :
    substitute answer 0 before ('π' :: rest) =
      enclosedLiteral .pi ++ substitute answer 0 (some 'π') rest := by
  rw [substitute, if_pos rfl]

theorem substitute_power (before : Option Char) (rest : List Char) :
    substitute answer 0 before ('^' :: rest) =
      '*' :: '*' :: substitute answer 0 (some '^') rest := by
  rw [substitute, if_neg (by decide), if_pos rfl]

theorem substitute_plain {c : Char} (plain : c ∉ replacedStarts) (before : Option Char)
    (rest : List Char) :
    substitute answer 0 before (c :: rest) = c :: substitute answer 0 (some c) rest := by
  simp only [replacedStarts, List.mem_cons, List.not_mem_nil, or_false, not_or] at plain
  obtain ⟨pi, power, noEuler, noAnswer⟩ := plain
  have euler : standsAlone ['e'] before (c :: rest) = false := by
    simp [standsAlone, Ne.symm noEuler]
  have last : standsAlone ['a', 'n', 's'] before (c :: rest) = false := by
    simp [standsAlone, Ne.symm noAnswer]
  exact substitute_cons pi power euler last

/-- Inside a name no other name stands alone. -/
theorem substitute_inside {c : Char} (pi : c ≠ 'π') (power : c ≠ '^') {before : Option Char}
    (inside : isBoundary before = false) (rest : List Char) :
    substitute answer 0 before (c :: rest) = c :: substitute answer 0 (some c) rest := by
  have alone : ∀ word, standsAlone word before (c :: rest) = false := by
    intro word
    rw [standsAlone, inside]
    rfl
  exact substitute_cons pi power (alone _) (alone _)

/-- Before a parenthesis it does not matter what stands there. -/
theorem substitute_separated {rest : List Char} (separated : Separated rest) (before : Option Char) :
    substitute answer 0 before rest = substitute answer 0 none rest := by
  cases separated with
  | ending => rfl
  | opening rest | closing rest =>
    rw [substitute_plain (by decide) before, substitute_plain (by decide) none]

/-- Nothing is replaced in the text, after the character before it. -/
def still (before : Option Char) : List Char → Bool
  | [] => true
  | c :: rest =>
    (!replacedStarts.contains c || !isBoundary before && c != 'π' && c != '^') &&
      still (some c) rest

theorem still_of_notMem {w : List Char} (h : ∀ c ∈ w, c ∉ replacedStarts) (before : Option Char) :
    still before w = true := by
  induction w generalizing before with
  | nil => rfl
  | cons c w ih =>
    have first := h c List.mem_cons_self
    rw [still, ih (fun c member => h c (List.mem_cons_of_mem _ member))]
    simp [first]

theorem substitute_still {w : List Char} {before : Option Char} (h : still before w = true)
    {rest : List Char} (separated : Separated rest) :
    substitute answer 0 before (w ++ rest) = w ++ substitute answer 0 none rest := by
  induction w generalizing before with
  | nil => exact substitute_separated separated before
  | cons c w ih =>
    simp only [still, Bool.and_eq_true, Bool.or_eq_true, Bool.not_eq_true', bne_iff_ne,
      List.contains_eq_mem, decide_eq_false_iff_not] at h
    obtain ⟨plain | ⟨⟨inside, pi⟩, power⟩, further⟩ := h
    · rw [List.cons_append, substitute_plain plain, ih further, List.cons_append]
    · rw [List.cons_append, substitute_inside pi power inside, ih further, List.cons_append]

theorem isBoundary_head_separated {rest : List Char} (separated : Separated rest) :
    isBoundary rest.head? = true := by
  cases separated with
  | ending => rfl
  | opening rest => rfl
  | closing rest => rfl

/-- The name of a function stays, for its first letter starts no word and the others stand inside. -/
theorem substitute_name (f : SurfaceFunction) (before : Option Char) {rest : List Char}
    (separated : Separated rest) :
    substitute answer 0 before (f.name ++ rest) = f.name ++ substitute answer 0 none rest := by
  have arc : ∀ further, substitute answer 0 before ('a' :: 'r' :: further) =
      'a' :: substitute answer 0 (some 'a') ('r' :: further) := fun further =>
    substitute_cons (by decide) (by decide) (by simp [standsAlone]) (by simp [standsAlone])
  have inside : ∀ {further : List Char} {start : Char}, still (some start) further = true →
      substitute answer 0 (some start) (further ++ rest) =
        further ++ substitute answer 0 none rest := fun h =>
    substitute_still h separated
  have names : ∀ {start : Char} {further : List Char}, still (some start) further = true →
      start ∉ replacedStarts ∨ start = 'a' ∧ further.head? = some 'r' →
      substitute answer 0 before (start :: further ++ rest) =
        start :: further ++ substitute answer 0 none rest := by
    intro start further h first
    rcases first with plain | ⟨rfl, next⟩
    · rw [List.cons_append, substitute_plain plain, inside h, List.cons_append]
    · cases further with
      | nil => cases next
      | cons c further =>
        cases next
        have tail := inside h
        rw [List.cons_append] at tail
        rw [List.cons_append, List.cons_append, arc, tail]
        rfl
  cases f <;> exact names (by decide) (by decide)

end Substitution

namespace Surface

/-- The text after constants, last answer and power signs are replaced. -/
def replaced (answer : Binary64) : Surface → List Char
  | .numeral n => n.text
  | .pi => enclosedLiteral .pi
  | .euler => enclosedLiteral .euler
  | .answer => enclosedLiteral answer
  | .signed sign t => sign.char :: parenthesized (t.replaced answer)
  | .binary o left right =>
    parenthesized (left.replaced answer) ++ o.canonical.text ++ parenthesized (right.replaced answer)
  | .call f t => f.name ++ parenthesized (t.replaced answer)

theorem substitute_text (answer : Binary64) (t : Surface) {before : Option Char}
    (boundary : isBoundary before = true) {rest : List Char} (separated : Separated rest) :
    substitute answer 0 before (t.text ++ rest) =
      t.replaced answer ++ substitute answer 0 none rest := by
  have around : ∀ {u : Surface}, (∀ {before : Option Char}, isBoundary before = true →
      ∀ {rest : List Char}, Separated rest → substitute answer 0 before (u.text ++ rest) =
        u.replaced answer ++ substitute answer 0 none rest) → ∀ before rest,
      substitute answer 0 before (parenthesized u.text ++ rest) =
        parenthesized (u.replaced answer) ++ substitute answer 0 (some ')') rest := by
    intro u inside before rest
    simp only [parenthesized, List.cons_append, List.append_assoc, List.nil_append]
    rw [substitute_plain (by decide), inside (by decide) (.closing rest),
      substitute_plain (by decide)]
  induction t generalizing before rest with
  | numeral n =>
    have plain := Numeral.forall_mem_text (P := fun c => c ∉ replacedStarts)
      (Digit.char_notMem (forall_mem_of_all (by decide))) (forall_mem_of_all (by decide)) n
    exact substitute_still (still_of_notMem plain before) separated
  | pi =>
    simp only [text, replaced, List.cons_append, List.nil_append, substitute, if_true]
    rw [substitute_separated separated]
  | euler =>
    have alone : standsAlone ['e'] before ('e' :: rest) = true := by
      simp [standsAlone, boundary, isBoundary_head_separated separated]
    simp only [text, replaced, List.cons_append, List.nil_append, substitute, alone, if_true]
    rw [if_neg (by decide), if_neg (by decide), substitute_separated separated]
  | answer =>
    have noEuler : standsAlone ['e'] before ('a' :: 'n' :: 's' :: rest) = false := by
      simp [standsAlone]
    have alone : standsAlone ['a', 'n', 's'] before ('a' :: 'n' :: 's' :: rest) = true := by
      simp [standsAlone, boundary, isBoundary_head_separated separated]
    simp only [text, replaced, List.cons_append, List.nil_append, substitute, noEuler, alone,
      if_true]
    rw [if_neg (by decide), if_neg (by decide), if_neg (by decide), substitute_separated separated]
  | signed sign t ih =>
    have plain : sign.char ∉ replacedStarts := by cases sign <;> decide
    rw [text, List.cons_append, substitute_plain plain, around ih, substitute_separated separated,
      replaced, List.cons_append]
  | binary o left right ih₁ ih₂ =>
    have operator : ∀ rest, substitute answer 0 (some ')') (o.char :: rest) =
        o.canonical.text ++ substitute answer 0 (some o.char) rest := by
      intro rest
      cases o with
      | power => rfl
      | _ => exact substitute_plain (by decide) _ _
    rw [text, List.append_assoc, around ih₁, List.cons_append, operator, around ih₂,
      substitute_separated separated, replaced]
    simp only [List.append_assoc]
  | call f t ih =>
    rw [text, List.append_assoc, substitute_name f _ (separated_parenthesized _ _), around ih,
      substitute_separated separated, replaced, List.append_assoc]

end Surface

end Calculator
