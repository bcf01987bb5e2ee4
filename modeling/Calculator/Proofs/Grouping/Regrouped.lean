import Calculator.Proofs.Grammar.SideBySide
import Calculator.Proofs.Grammar.Writing
import Calculator.Proofs.Token.Front

/-!
# Parentheses around an operand

A sequence of lexemes and the one with an operand of it in parentheses are read alike, where the
operand starts at the front or behind an operator and no parenthesis is opened behind it. A sign is a
part of such an operand, because it binds tighter than anything to the left or right of it. Only in
parentheses can the operand be found too deep for that.
-/
namespace Calculator

/-- Behind this lexeme an operand is expected. -/
def Lexeme.opensOperand : Lexeme → Bool
  | .operator o => o ≠ .closing
  | _ => false

/-- The lexemes write a signed operand with a value, wherever no parenthesis is opened behind them. -/
structure IsOperand (registry : Registry) (lexemes : List Lexeme) (t : Syntax) (x : Binary64) :
    Prop where
  derives {c : Cursor} {ls : List Lexeme} (h : c.rest.lexemes = lexemes ++ ls)
    (alone : ls.head? ≠ some (.operator .opening)) :
    ∃ c', Derives .unary c t c' ∧ c'.rest.lexemes = ls
  value : t.value? registry = some x

/-- A number may not stand right here, nor a parenthesis be opened. -/
def StopsOperand (ls : List Lexeme) : Prop :=
  ls.head? ≠ some (.operator .opening) ∧ ∀ n, ls.head? ≠ some (.number n)

/-- The lexemes on the left are those on the right, but that operands may stand in parentheses; at
the front only if an operand is expected there. -/
inductive Regrouped (registry : Registry) : Bool → List Lexeme → List Lexeme → Prop
  | ending {expected : Bool} : Regrouped registry expected [] []
  | lexeme {expected : Bool} (l : Lexeme) {d r : List Lexeme}
      (further : Regrouped registry l.opensOperand d r) :
      Regrouped registry expected (l :: d) (l :: r)
  | grouped {lexemes : List Lexeme} {t : Syntax} {x : Binary64}
      (operand : IsOperand registry lexemes t x) {d r : List Lexeme} (stops : StopsOperand d)
      (further : Regrouped registry false d r) :
      Regrouped registry true (enclosed lexemes ++ d) (lexemes ++ r)

namespace Regrouped

variable {registry : Registry} {d r : List Lexeme}

theorem refl (expected : Bool) (ls : List Lexeme) : Regrouped registry expected ls ls := by
  induction ls generalizing expected with
  | nil => exact .ending
  | cons l ls ih => exact .lexeme l (ih l.opensOperand)

theorem head?_eq (h : Regrouped registry false d r) : d.head? = r.head? := by
  cases h <;> rfl

theorem expected (h : Regrouped registry false d r) : Regrouped registry true d r := by
  cases h with
  | ending => exact .ending
  | lexeme l further => exact .lexeme l further

/-- Lexemes in front of both, the last of which expects an operand. -/
theorem append {expected expected' : Bool} (h : Regrouped registry expected d r) (ls : List Lexeme)
    (last : ∀ l, ls.getLast? = some l → l.opensOperand = expected)
    (empty : ls = [] → expected' = expected) :
    Regrouped registry expected' (ls ++ d) (ls ++ r) := by
  induction ls generalizing expected' with
  | nil =>
    rw [empty rfl]
    exact h
  | cons l ls ih =>
    refine .lexeme l (ih (fun l' member => last l' ?_) ?_)
    · rw [List.getLast?_cons, member]
      rfl
    · rintro rfl
      exact last l rfl

end Regrouped

/-- Places from which the lexemes are regrouped. That a parenthesis has been closed is known on one
side only if no number comes next. -/
structure Regrouping (registry : Registry) (expected : Bool) (c c' : Cursor) : Prop where
  afterClosing : c.afterClosing = c'.afterClosing ∨ ∀ n, c.next? ≠ some (.number n)
  rest : Regrouped registry expected c.rest.lexemes c'.rest.lexemes

/-- What comes next on the left and on the right. -/
inductive Onward (registry : Registry) (c c' : Cursor) : Prop
  | ending (next : c.next? = none) (next' : c'.next? = none)
  | lexeme (l : Lexeme) (next : c.next? = some l) (next' : c'.next? = some l)
      (further : Regrouping registry l.opensOperand c.advance c'.advance)
  | grouped {lexemes : List Lexeme} {t : Syntax} {x : Binary64}
      (operand : IsOperand registry lexemes t x) {d r : List Lexeme} (stops : StopsOperand d)
      (further : Regrouped registry false d r) (left : c.rest.lexemes = enclosed lexemes ++ d)
      (right : c'.rest.lexemes = lexemes ++ r)

theorem Cursor.next?_eq_head? (c : Cursor) : c.next? = c.rest.lexemes.head? := by
  unfold next?
  cases c.rest <;> rfl

theorem Cursor.operator?_eq_of_next? {c c' : Cursor} (h : c.next? = c'.next?) :
    c.operator? = c'.operator? := by
  rw [operator?, operator?, h]

namespace Regrouping

variable {registry : Registry} {expected : Bool} {c c' : Cursor}

theorem onward (h : Regrouping registry expected c c') : Onward registry c c' := by
  obtain ⟨-, rest⟩ := h
  generalize left : c.rest.lexemes = d at rest
  generalize right : c'.rest.lexemes = r at rest
  cases rest with
  | ending => exact .ending (Cursor.atEnd_of_lexemes left) (Cursor.atEnd_of_lexemes right)
  | lexeme l further =>
    obtain ⟨next, rfl⟩ := Cursor.next?_of_lexemes left
    obtain ⟨next', rfl⟩ := Cursor.next?_of_lexemes right
    refine .lexeme l next next' ⟨.inl ?_, further⟩
    rw [Cursor.afterClosing_advance next, Cursor.afterClosing_advance next']
  | grouped operand stops further => exact .grouped operand stops further left right

/-- Behind an operand the same lexeme comes next. -/
theorem next?_eq (h : Regrouping registry false c c') : c.next? = c'.next? := by
  rw [Cursor.next?_eq_head?, Cursor.next?_eq_head?, h.rest.head?_eq]

theorem operator?_eq (h : Regrouping registry false c c') : c.operator? = c'.operator? :=
  Cursor.operator?_eq_of_next? h.next?_eq

theorem before (h : Regrouping registry false c c') : Regrouping registry true c c' :=
  ⟨h.afterClosing, h.rest.expected⟩

theorem advance (h : Regrouping registry false c c') {l : Lexeme} (next : c.next? = some l) :
    Regrouping registry l.opensOperand c.advance c'.advance := by
  obtain ⟨-, rest⟩ := h
  generalize left : c.rest.lexemes = d at rest
  generalize right : c'.rest.lexemes = r at rest
  cases rest with
  | ending =>
    have none : c.next? = Option.none := Cursor.atEnd_of_lexemes left
    rw [next] at none
    cases none
  | lexeme l' further =>
    obtain ⟨next₁, rfl⟩ := Cursor.next?_of_lexemes left
    obtain ⟨next₂, rfl⟩ := Cursor.next?_of_lexemes right
    cases next.symm.trans next₁
    refine ⟨.inl ?_, further⟩
    rw [Cursor.afterClosing_advance next₁, Cursor.afterClosing_advance next₂]

theorem joins : Joins (Regrouping registry true) (Regrouping registry false) where
  operator?_eq h := h.operator?_eq
  startsAlone_iff {c c'} h := by
    have next := h.next?_eq
    rw [← Cursor.startsFactor_iff, ← Cursor.startsFactor_iff]
    unfold Cursor.startsFactor
    rw [← next]
    rcases h.afterClosing with same | noNumber
    · rw [same]
    · split
      · rfl
      · rfl
      · rename_i n found
        exact absurd found (noNumber n)
      · rfl
  before_of_startsAlone h _ := h.before
  advance {c c'} h {o} next _ closing := by
    have further := h.advance (Cursor.next?_of_operator? next)
    rwa [Lexeme.opensOperand, decide_eq_true closing] at further

/-- An operand has a lexeme, and does not start with a closing parenthesis. -/
theorem next?_of_operand {lexemes : List Lexeme} {t : Syntax} {x : Binary64} {r : List Lexeme}
    (operand : IsOperand registry lexemes t x) (right : c.rest.lexemes = lexemes ++ r)
    (alone : r.head? ≠ some (.operator .opening)) :
    ¬ c.AtEnd ∧ c.operator? ≠ some .closing := by
  obtain ⟨c₁, derived, -⟩ := operand.derives right alone
  refine ⟨fun atEnd => ?_, derived.operator?_ne_closing trivial⟩
  have shorter := derived.length_le
  obtain ⟨position, finished⟩ := Cursor.rest_of_next?_none atEnd
  simp [finished, Tokens.length, Category.least] at shorter

theorem atEnd_iff (h : Regrouping registry expected c c') : c.AtEnd ↔ c'.AtEnd := by
  cases h.onward with
  | ending next next' => exact ⟨fun _ => next', fun _ => next⟩
  | lexeme l next next' =>
    unfold Cursor.AtEnd
    rw [next, next']
  | grouped operand stops further left right =>
    have alone := stops.1
    rw [further.head?_eq] at alone
    have present := (next?_of_operand operand right alone).1
    refine ⟨fun atEnd => ?_, fun atEnd => absurd atEnd present⟩
    obtain ⟨next, -⟩ := Cursor.next?_of_lexemes left
    rw [Cursor.AtEnd, next] at atEnd
    cases atEnd

theorem expect_closing (h : Regrouping registry false c c') :
    Matches (Regrouping registry false) (c.expect .closing) (c'.expect .closing) := by
  unfold Cursor.expect
  rw [← h.operator?_eq]
  split
  · rename_i next
    exact .value (h.advance (Cursor.next?_of_operator? next))
  · exact .fault rfl

end Regrouping

/-- With fewer levels to take a value is the same or is found too deep. -/
theorem Syntax.within_matches (limit : Nat) {depth depth' : Nat} (deeper : depth' ≤ depth)
    (x : Binary64) (levels : Nat) :
    Matches (· = ·) (within limit depth x levels) (within limit depth' x levels) := by
  unfold within
  split
  · rename_i enough
    rw [if_pos (Nat.le_trans deeper enough)]
    exact .value rfl
  · exact .tooLarge rfl _

namespace Rules

/-- Rules that read what is regrouped alike. -/
structure Regroups (registry : Registry) (inner : Rules) : Prop where
  derive : inner.Derive
  expression {c c' : Cursor} (h : Regrouping registry true c c') :
    Matches (SameAt (Regrouping registry false)) (inner.expression c) (inner.expression c')
  power {c c' : Cursor} (h : Regrouping registry true c c') :
    Matches (SameAt (Regrouping registry false)) (inner.power c) (inner.power c')
  unary {c c' : Cursor} (h : Regrouping registry true c c') :
    Matches (SameAt (Regrouping registry false)) (inner.unary c) (inner.unary c')
  arguments {c c' : Cursor} (h : Regrouping registry true c c') :
    Matches (SameAt (Regrouping registry false)) (inner.arguments c) (inner.arguments c')

namespace Regroups

variable {registry : Registry} {inner : Rules} (rules : Regroups registry inner) {c c' : Cursor}

include rules

theorem named (name : List Char) (h : Regrouping registry false c c') :
    Matches (SameAt (Regrouping registry false)) (named registry inner name c)
      (named registry inner name c') := by
  have arguments : c.operator? = some .opening → Matches (SameAt (Regrouping registry false))
      (inner.arguments c.advance) (inner.arguments c'.advance) := fun opening =>
    rules.arguments (h.advance (Cursor.next?_of_operator? opening))
  cases found : registry.function? name with
  | some function =>
    rw [named_of_function found, named_of_function found, ← h.operator?_eq]
    by_cases opening : c.operator? = some .opening
    · rw [if_pos opening, if_pos opening]
      exact called_matches name function (arguments opening)
    · rw [if_neg opening, if_neg opening]
      exact .fault rfl
  | none =>
    rw [named_of_no_function found, named_of_no_function found, ← h.operator?_eq]
    cases registry.constant? name with
    | none => exact .fault rfl
    | some value =>
      by_cases opening : c.operator? = some .opening
      · simp only [if_pos opening]
        exact .fault rfl
      · simp only [if_neg opening]
        exact .value ⟨rfl, h⟩

/-- A primary that starts with the same lexeme. -/
theorem primary {l : Lexeme} (next : c.next? = some l) (next' : c'.next? = some l)
    (further : Regrouping registry l.opensOperand c.advance c'.advance) :
    Matches (SameAt (Regrouping registry false)) (primary registry inner c)
      (primary registry inner c') := by
  cases l with
  | number n =>
    rw [primary_of_number _ _ next, primary_of_number _ _ next']
    exact .value ⟨rfl, further⟩
  | name name =>
    rw [primary_of_name _ _ next, primary_of_name _ _ next']
    exact rules.named name further
  | operator o =>
    have symbol := Cursor.operator?_of_next? next
    have symbol' := Cursor.operator?_of_next? next'
    by_cases opening : o = .opening
    · subst opening
      rw [primary_of_opening _ _ symbol, primary_of_opening _ _ symbol']
      refine (rules.expression further).bind ?_
      rintro ⟨x, c₁⟩ ⟨_, c₂⟩ - - ⟨rfl, inside⟩
      refine inside.expect_closing.bind ?_
      intro c₁ c₂ _ _ behind
      exact .value ⟨rfl, behind⟩
    · obtain ⟨position, read⟩ := primary_of_operator registry inner symbol opening
      obtain ⟨position', read'⟩ := primary_of_operator registry inner symbol' opening
      rw [read, read']
      exact .fault rfl

end Regroups

section Level

variable {registry : Registry} {limit levels : Nat} {c c' : Cursor}

/-- An operand in parentheses has the value that it has without them. -/
theorem signed_matches_grouped {lexemes : List Lexeme} {t : Syntax} {x : Binary64}
    (operand : IsOperand registry lexemes t x) {d r : List Lexeme} (stops : StopsOperand d)
    (further : Regrouped registry false d r) (left : c.rest.lexemes = enclosed lexemes ++ d)
    (right : c'.rest.lexemes = lexemes ++ r) :
    Matches (SameAt (Regrouping registry false))
      (signed registry (inside registry limit levels) c)
      (signed registry (inside registry limit levels) c') := by
  have alone := stops.1
  rw [further.head?_eq] at alone
  obtain ⟨c₂, plain, behind'⟩ := operand.derives right alone
  simp only [enclosed, List.cons_append, List.append_assoc] at left
  obtain ⟨opening, left⟩ := Cursor.operator?_of_lexemes left
  obtain ⟨c₁, enclosed, behind⟩ := operand.derives left (by simp)
  obtain ⟨closing, behind⟩ := Cursor.operator?_of_lexemes behind
  have group : Derives .unary c (.group t) c₁.advance :=
    .unsigned (.group opening (Derives.expression_of_unary enclosed) closing)
  have value : (Syntax.group t).value? registry = some x := operand.value
  rw [group.reads registry limit trivial levels, plain.reads registry limit trivial levels,
    Syntax.evaluate_of_value? registry limit _ value,
    Syntax.evaluate_of_value? registry limit _ operand.value]
  -- only the left has closed a parenthesis, which counts before a number, and none stands there
  have places : Regrouping registry false c₁.advance c₂ := by
    refine ⟨.inr fun n => ?_, ?_⟩
    · rw [Cursor.next?_eq_head?, behind]
      exact stops.2 n
    · rw [behind, behind']
      exact further
  -- the group takes one level more than the operand, so the left alone may be too deep
  have same := Syntax.within_matches limit (Nat.le_succ t.depth) x levels
  rw [Syntax.depth]
  generalize Syntax.within limit (t.depth + 1) x levels = step at same
  generalize Syntax.within limit t.depth x levels = step' at same
  cases same with
  | tooLarge kind other => exact .tooLarge kind _
  | fault kind => exact .fault kind
  | value same =>
    rw [same]
    exact .value ⟨rfl, places⟩

variable (rules : Regroups registry (inside registry limit levels))

include rules

theorem signed_matches_regrouped (h : Regrouping registry true c c') :
    Matches (SameAt (Regrouping registry false))
      (signed registry (inside registry limit levels) c)
      (signed registry (inside registry limit levels) c') := by
  cases h.onward with
  | ending next next' =>
    have none : ∀ {c₁ : Cursor}, c₁.next? = Option.none →
        ∀ sign : Sign, c₁.operator? ≠ some sign.symbol := by
      intro c₁ next sign
      rw [Cursor.operator?_of_next?_none next]
      exact (Option.some_ne_none _).symm
    obtain ⟨position, read⟩ := primary_of_end registry (inside registry limit levels) next
    obtain ⟨position', read'⟩ := primary_of_end registry (inside registry limit levels) next'
    rw [signed_of_no_sign _ _ (none next), signed_of_no_sign _ _ (none next'), read, read']
    exact .fault rfl
  | lexeme l next next' further =>
    have same := Cursor.operator?_eq_of_next? (next.trans next'.symm)
    by_cases symbol : ∃ sign : Sign, c.operator? = some sign.symbol
    · obtain ⟨sign, symbol⟩ := symbol
      have symbol' := symbol
      rw [same] at symbol'
      have operand : Regrouping registry true c.advance c'.advance := by
        cases next.symm.trans (Cursor.next?_of_operator? symbol)
        cases sign <;> exact further
      rw [signed_of_sign _ _ symbol, signed_of_sign _ _ symbol']
      refine (rules.unary operand).bind ?_
      rintro ⟨x, c₁⟩ ⟨y, c₂⟩ - - ⟨rfl, further⟩
      exact .value ⟨rfl, further⟩
    · have absent : ∀ sign : Sign, c.operator? ≠ some sign.symbol := fun sign found =>
        symbol ⟨sign, found⟩
      rw [signed_of_no_sign _ _ absent, signed_of_no_sign _ _ (by rwa [← same])]
      exact rules.primary next next' further
  | grouped operand stops further left right =>
    exact signed_matches_grouped operand stops further left right

theorem beside_regrouped : Beside (Regrouping registry true) (Regrouping registry false) registry
    registry (inside registry limit levels) (inside registry limit levels) where
  joins := Regrouping.joins
  derive := rules.derive
  derive' := rules.derive
  signed := signed_matches_regrouped rules
  power := rules.power

theorem argumentList_matches_regrouped (h : Regrouping registry true c c') :
    Matches (SameAt (Regrouping registry false))
      (argumentList registry (inside registry limit levels) c)
      (argumentList registry (inside registry limit levels) c') := by
  -- whether the list is empty is seen at its first lexeme, which in a group is another one
  have some : c.operator? ≠ some .closing → c'.operator? ≠ some .closing →
      Matches (SameAt (Regrouping registry false))
        (argumentList registry (inside registry limit levels) c)
        (argumentList registry (inside registry limit levels) c') := by
    intro absent absent'
    rw [argumentList, argumentList, if_neg absent, if_neg absent']
    refine ((beside_regrouped rules).sum h).bind ?_
    rintro ⟨value, c₁⟩ ⟨_, c₂⟩ - - ⟨rfl, further⟩
    refine ((beside_regrouped rules).moreArguments further (Nat.le_refl _) (Nat.le_refl _)).bind ?_
    rintro ⟨values, c₁⟩ ⟨_, c₂⟩ - - ⟨rfl, further⟩
    refine further.expect_closing.bind ?_
    intro c₁ c₂ _ _ closed
    exact .value ⟨rfl, closed⟩
  cases h.onward with
  | ending next next' =>
    apply some <;> rw [Cursor.operator?_of_next?_none (by assumption)] <;>
      exact (Option.some_ne_none _).symm
  | lexeme l next next' further =>
    have same := Cursor.operator?_eq_of_next? (next.trans next'.symm)
    by_cases closing : c.operator? = Option.some .closing
    · rw [argumentList, argumentList, if_pos closing, if_pos (same ▸ closing)]
      cases next.symm.trans (Cursor.next?_of_operator? closing)
      exact .value ⟨rfl, further⟩
    · exact some closing (same ▸ closing)
  | grouped operand stops further left right =>
    have alone := stops.1
    rw [further.head?_eq] at alone
    obtain ⟨opening, -⟩ := Cursor.operator?_of_lexemes left
    refine some ?_ (Regrouping.next?_of_operand operand right alone).2
    rw [opening]
    decide

end Level

theorem regroups_inside (registry : Registry) (limit levels : Nat) :
    Regroups registry (inside registry limit levels) := by
  induction levels with
  | zero =>
    exact ⟨derive_refuse limit, fun _ => .tooLarge rfl _, fun _ => .tooLarge rfl _,
      fun _ => .tooLarge rfl _, fun _ => .tooLarge rfl _⟩
  | succ levels ih =>
    rw [inside, nested_eq]
    exact ⟨derive_around registry ih.derive, (beside_regrouped ih).sum, (beside_regrouped ih).raised,
      signed_matches_regrouped ih, argumentList_matches_regrouped ih⟩

end Rules

/-- Whole expressions are read alike with and without parentheses around an operand. -/
theorem Tokens.value_regrouped (registry : Registry) (limit : Nat) {tokens tokens' : Tokens}
    (h : Regrouped registry true tokens.lexemes tokens'.lexemes) :
    Matches (· = ·) (tokens.value registry limit) (tokens'.value registry limit) := by
  have start : Regrouping registry true tokens.start tokens'.start := ⟨.inl rfl, h⟩
  have rules := Rules.regroups_inside registry limit limit
  exact value_matches_of_sum start.atEnd_iff Regrouping.atEnd_iff
    ((Rules.beside_regrouped rules).sum start)

/-! ## Canonical texts -/

/-- A text is read, or a character in it is refused. -/
theorem spells_or_unreadable (text : List Char) :
    (∃ lexemes, Spells text lexemes) ∨ Unreadable text := by
  rcases leads_or_unreadable text with ⟨lexemes, leads⟩ | refused
  · have read := leads.spells spells_nil
    rw [List.append_nil] at read
    exact .inl ⟨lexemes, read⟩
  · exact .inr refused

/-- Both texts are refused, or the lexemes of one are regrouped in the other. -/
inductive ReadRegrouped (registry : Registry) (L R : List Char) : Prop
  | refused (first : Unreadable L) (second : Unreadable R)
  | read {d r : List Lexeme} (first : Spells L d) (second : Spells R r)
      (regrouped : Regrouped registry true d r)

theorem ReadRegrouped.matches {registry : Registry} {L R : List Char}
    (h : ReadRegrouped registry L R) :
    Matches (· = ·) (evaluateCanonicalWith registry L) (evaluateCanonicalWith registry R) := by
  unfold evaluateCanonicalWith Tokens.ofText
  cases h with
  | refused first second =>
    obtain ⟨fault, read, kind⟩ := first 0
    obtain ⟨fault', read', kind'⟩ := second 0
    rw [read, read']
    exact .fault (kind.trans kind'.symm)
  | read first second regrouped =>
    obtain ⟨tokens, read, rfl⟩ := first 0
    obtain ⟨tokens', read', rfl⟩ := second 0
    rw [read, read']
    exact Tokens.value_regrouped registry nestingLimit regrouped

end Calculator
