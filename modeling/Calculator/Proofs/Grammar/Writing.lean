import Calculator.Proofs.Grammar.Sentences
import Calculator.Proofs.Token.Spelling

/-!
# Written trees

A text writes a tree if, before a closing parenthesis, a comma or the end, it is read as lexemes from
which the tree is derived as an expression. Operands of operators are written in parentheses, so that
a tree is written by writing its parts.
-/
namespace Calculator

/-- An expression can end here: there is nothing more, a closing parenthesis or a comma. -/
inductive Delimits : List Char → Prop
  | ending : Delimits []
  | closing (rest : List Char) : Delimits (')' :: rest)
  | comma (rest : List Char) : Delimits (',' :: rest)

theorem Delimits.stops {rest : List Char} (h : Delimits rest) : Numeral.Stops rest := by
  cases h with
  | ending => exact Numeral.stops_nil
  | closing rest => exact Numeral.stops_cons rest (by decide) (by decide) (by decide)
  | comma rest => exact Numeral.stops_cons rest (by decide) (by decide) (by decide)

theorem Delimits.stopsName {rest : List Char} (h : Delimits rest) : StopsName rest := by
  intro c head
  cases h with
  | ending => cases head
  | closing rest => cases head; decide
  | comma rest => cases head; decide

theorem stopsName_opening (rest : List Char) : StopsName ('(' :: rest) := by
  intro c head
  cases head
  decide

namespace Cursor

theorem next?_of_lexemes {c : Cursor} {lexeme : Lexeme} {ls : List Lexeme}
    (h : c.rest.lexemes = lexeme :: ls) : c.next? = some lexeme ∧ c.advance.rest.lexemes = ls := by
  unfold next? advance
  cases rest : c.rest with
  | finish position =>
    rw [rest] at h
    cases h
  | token found position further =>
    rw [rest] at h
    cases h
    exact ⟨rfl, rfl⟩

theorem operator?_of_lexemes {c : Cursor} {operator : Operator} {ls : List Lexeme}
    (h : c.rest.lexemes = .operator operator :: ls) :
    c.operator? = some operator ∧ c.advance.rest.lexemes = ls := by
  obtain ⟨next, behind⟩ := next?_of_lexemes h
  exact ⟨operator?_of_next? next, behind⟩

/-- The operator that comes next is the first lexeme. -/
theorem head?_lexemes {c : Cursor} {operator : Operator} (h : c.operator? = some operator) :
    c.rest.lexemes.head? = some (.operator operator) := by
  obtain ⟨position, found⟩ := rest_of_next? (next?_of_operator? h)
  rw [found]
  rfl

theorem operator?_ne_of_lexemes {c : Cursor} {operator : Operator} {ls : List Lexeme}
    (h : c.rest.lexemes = ls) (different : ls.head? ≠ some (.operator operator)) :
    c.operator? ≠ some operator := by
  intro found
  rw [← h] at different
  exact different (head?_lexemes found)

theorem atEnd_of_lexemes {c : Cursor} (h : c.rest.lexemes = []) : c.AtEnd := by
  unfold AtEnd next?
  cases rest : c.rest with
  | finish position => rfl
  | token found position further =>
    rw [rest] at h
    cases h

end Cursor

namespace Derives

variable {c c' : Cursor} {t : Syntax}

/-- A phrase of a tighter category is an expression by itself. -/
theorem expression_of_term (h : Derives .term c t c') : Derives .expression c t c' :=
  .expression h .noTerm

theorem expression_of_power (h : Derives .power c t c') : Derives .expression c t c' :=
  expression_of_term (.term h .noFactor)

theorem expression_of_unary (h : Derives .unary c t c') : Derives .expression c t c' :=
  expression_of_power (.base h)

theorem expression_of_primary (h : Derives .primary c t c') : Derives .expression c t c' :=
  expression_of_unary (.unsigned h)

end Derives

/-- Lexemes in parentheses. -/
def enclosed (lexemes : List Lexeme) : List Lexeme :=
  .operator .opening :: lexemes ++ [.operator .closing]

/-- The text spells the lexemes, and the tree is derived from them, wherever an expression can
end behind them. -/
structure Writes (text : List Char) (lexemes : List Lexeme) (t : Syntax) : Prop where
  spells {rest : List Char} {ls : List Lexeme} (delimits : Delimits rest) (h : Spells rest ls) :
    Spells (text ++ rest) (lexemes ++ ls)
  derives {c : Cursor} {ls : List Lexeme} (h : c.rest.lexemes = lexemes ++ ls)
    (alone : ls.head? ≠ some (.operator .opening)) :
    ∃ c', Derives .expression c t c' ∧ c'.rest.lexemes = ls

theorem writes_number (n : Numeral) : Writes n.text [.number n] (.number n) where
  spells delimits h := h.number n delimits.stops
  derives h _ := by
    obtain ⟨next, behind⟩ := Cursor.next?_of_lexemes h
    exact ⟨_, Derives.expression_of_primary (.number next), behind⟩

theorem writes_constant {name : List Char} (h : IsName name) :
    Writes name [.name name] (.constant name) where
  spells delimits spelled := spelled.name h delimits.stopsName
  derives h alone := by
    obtain ⟨next, behind⟩ := Cursor.next?_of_lexemes h
    have noCall := Cursor.operator?_ne_of_lexemes behind alone
    exact ⟨_, Derives.expression_of_primary (.constant next noCall), behind⟩

namespace Writes

variable {text text' : List Char} {ls ls' : List Lexeme} {t t' : Syntax}

/-- In parentheses a tree can be followed by anything. -/
theorem spells_parenthesized (h : Writes text ls t) {rest : List Char} {further : List Lexeme}
    (spelled : Spells rest further) :
    Spells (parenthesized text ++ rest) (enclosed ls ++ further) := by
  have closing := spelled.operator .closing (by intro h; cases h)
  have inner := h.spells (.closing rest) closing
  have whole := inner.operator .opening (by intro h; cases h)
  simpa [parenthesized, enclosed, Operator.text] using whole

theorem derives_group (h : Writes text ls t) {c : Cursor} {further : List Lexeme}
    (next : c.rest.lexemes = enclosed ls ++ further) :
    ∃ c', Derives .primary c (.group t) c' ∧ c'.rest.lexemes = further ∧
      c'.afterClosing = true := by
  simp only [enclosed, List.cons_append, List.append_assoc] at next
  obtain ⟨opening, inside⟩ := Cursor.operator?_of_lexemes next
  obtain ⟨c₁, derived, behind⟩ := h.derives inside (by simp)
  obtain ⟨closing, behind⟩ := Cursor.operator?_of_lexemes behind
  have closed := Cursor.afterClosing_advance (Cursor.next?_of_operator? closing)
  exact ⟨_, .group opening derived closing, behind, closed⟩

theorem group (h : Writes text ls t) : Writes (parenthesized text) (enclosed ls) (.group t) where
  spells _ spelled := h.spells_parenthesized spelled
  derives next _ := by
    obtain ⟨c', derived, behind, -⟩ := h.derives_group next
    exact ⟨c', Derives.expression_of_primary derived, behind⟩

/-- An operator between operands in parentheses. -/
theorem spells_between (first : Writes text ls t) (operator : Operator)
    (second : Writes text' ls' t') {rest : List Char} {further : List Lexeme}
    (spelled : Spells rest further) :
    Spells (parenthesized text ++ operator.text ++ parenthesized text' ++ rest)
      (enclosed ls ++ .operator operator :: enclosed ls' ++ further) := by
  have right := second.spells_parenthesized spelled
  have joined := right.operator operator (by intro; simp [parenthesized])
  simpa using first.spells_parenthesized joined

theorem derives_between (first : Writes text ls t) (operator : Operator)
    (second : Writes text' ls' t') {c : Cursor} {further : List Lexeme}
    (next : c.rest.lexemes = enclosed ls ++ .operator operator :: enclosed ls' ++ further) :
    ∃ c₁ c₂, Derives .primary c (.group t) c₁ ∧ c₁.operator? = some operator ∧
      Derives .primary c₁.advance (.group t') c₂ ∧ c₂.rest.lexemes = further := by
  rw [List.append_assoc] at next
  obtain ⟨c₁, left, behind, -⟩ := first.derives_group next
  obtain ⟨symbol, behind⟩ := Cursor.operator?_of_lexemes behind
  obtain ⟨c₂, right, behind, -⟩ := second.derives_group behind
  exact ⟨c₁, c₂, left, symbol, right, behind⟩

theorem sum (first : Writes text ls t) (sign : Sign) (second : Writes text' ls' t') :
    Writes (parenthesized text ++ sign.symbol.text ++ parenthesized text')
      (enclosed ls ++ .operator sign.symbol :: enclosed ls') (.sum sign (.group t) (.group t')) where
  spells _ spelled := first.spells_between sign.symbol second spelled
  derives next _ := by
    obtain ⟨c₁, c₂, left, symbol, right, behind⟩ := first.derives_between _ second next
    have term := Derives.term (.base (.unsigned right)) .noFactor
    exact ⟨c₂, .expression (.term (.base (.unsigned left)) .noFactor)
      (.furtherTerm symbol term .noTerm), behind⟩

theorem product (first : Writes text ls t) (link : Link) {operator : Operator}
    (written : link.symbol? = some operator) (second : Writes text' ls' t') :
    Writes (parenthesized text ++ operator.text ++ parenthesized text')
      (enclosed ls ++ .operator operator :: enclosed ls')
      (.product link (.group t) (.group t')) where
  spells _ spelled := first.spells_between operator second spelled
  derives next _ := by
    obtain ⟨c₁, c₂, left, symbol, right, behind⟩ := first.derives_between _ second next
    exact ⟨c₂, Derives.expression_of_term (.term (.base (.unsigned left))
      (.factor written symbol (.base (.unsigned right)) .noFactor)), behind⟩

theorem power (base : Writes text ls t) (exponent : Writes text' ls' t') :
    Writes (parenthesized text ++ Operator.power.text ++ parenthesized text')
      (enclosed ls ++ .operator .power :: enclosed ls') (.power (.group t) (.group t')) where
  spells _ spelled := base.spells_between .power exponent spelled
  derives next _ := by
    obtain ⟨c₁, c₂, left, symbol, right, behind⟩ := base.derives_between _ exponent next
    exact ⟨c₂, Derives.expression_of_power (.raised (.unsigned left) symbol
      (.base (.unsigned right))), behind⟩

theorem spells_signed (h : ∀ {rest further}, Delimits rest → Spells rest further →
      Spells (text ++ rest) (ls ++ further)) (sign : Sign) {rest : List Char}
    {further : List Lexeme} (delimits : Delimits rest) (spelled : Spells rest further) :
    Spells (sign.symbol.text ++ text ++ rest)
      (.operator sign.symbol :: ls ++ further) := by
  have whole := (h delimits spelled).operator sign.symbol (by cases sign <;> intro h <;> cases h)
  simpa using whole

/-- A sign before an operand in parentheses. -/
theorem signed (sign : Sign) (h : Writes text ls t) :
    Writes (sign.symbol.text ++ parenthesized text) (.operator sign.symbol :: enclosed ls)
      (.signed sign (.group t)) where
  spells delimits spelled := spells_signed h.group.spells sign delimits spelled
  derives next _ := by
    obtain ⟨symbol, behind⟩ := Cursor.operator?_of_lexemes next
    obtain ⟨c', derived, behind, -⟩ := h.derives_group behind
    exact ⟨c', Derives.expression_of_unary (.signed symbol (.unsigned derived)), behind⟩

/-- A sign before a numeral. -/
theorem signedNumber (sign : Sign) (n : Numeral) :
    Writes (sign.symbol.text ++ n.text) [.operator sign.symbol, .number n]
      (.signed sign (.number n)) where
  spells delimits spelled := spells_signed (writes_number n).spells sign delimits spelled
  derives next _ := by
    obtain ⟨symbol, behind⟩ := Cursor.operator?_of_lexemes next
    obtain ⟨number, behind⟩ := Cursor.next?_of_lexemes behind
    exact ⟨_, Derives.expression_of_unary (.signed symbol (.unsigned (.number number))), behind⟩

/-- A sign before a constant. -/
theorem signedConstant (sign : Sign) {name : List Char} (h : IsName name) :
    Writes (sign.symbol.text ++ name) [.operator sign.symbol, .name name]
      (.signed sign (.constant name)) where
  spells delimits spelled := spells_signed (writes_constant h).spells sign delimits spelled
  derives next alone := by
    obtain ⟨symbol, behind⟩ := Cursor.operator?_of_lexemes next
    obtain ⟨constant, behind⟩ := Cursor.next?_of_lexemes behind
    have noCall := Cursor.operator?_ne_of_lexemes behind alone
    have operand := Derives.unsigned (.constant constant noCall)
    exact ⟨_, Derives.expression_of_unary (.signed symbol operand), behind⟩

/-- A call of one argument. -/
theorem call {name : List Char} (isName : IsName name) (h : Writes text ls t) :
    Writes (name ++ parenthesized text) (.name name :: enclosed ls) (.call name [t]) where
  spells _ spelled := by
    have arguments := h.spells_parenthesized spelled
    have whole := arguments.name isName (by simpa [parenthesized] using stopsName_opening _)
    simpa using whole
  derives next _ := by
    simp only [enclosed, List.cons_append, List.append_assoc] at next
    obtain ⟨called, behind⟩ := Cursor.next?_of_lexemes next
    obtain ⟨opening, behind⟩ := Cursor.operator?_of_lexemes behind
    obtain ⟨c₁, argument, behind⟩ := h.derives behind (by simp)
    obtain ⟨closing, behind⟩ := Cursor.operator?_of_lexemes behind
    exact ⟨_, Derives.expression_of_primary (.call called opening
      (.firstArgument argument (.lastArgument closing))), behind⟩

/-- A call of two arguments, with a blank behind the comma. -/
theorem callTwo {name : List Char} (isName : IsName name) (first : Writes text ls t)
    (second : Writes text' ls' t') :
    Writes (name ++ parenthesized (text ++ ',' :: ' ' :: text'))
      (.name name :: enclosed (ls ++ .operator .comma :: ls')) (.call name [t, t']) where
  spells _ spelled := by
    have closing := spelled.operator .closing (by intro h; cases h)
    have right := second.spells (.closing _) closing
    have blank := right.blank (show isBlank ' ' = true by decide)
    have comma := blank.operator .comma (by intro h; cases h)
    have left := first.spells (.comma _) comma
    have opening := left.operator .opening (by intro h; cases h)
    have whole := opening.name isName (stopsName_opening _)
    simpa [parenthesized, enclosed, Operator.text] using whole
  derives next _ := by
    simp only [enclosed, List.cons_append, List.append_assoc] at next
    obtain ⟨called, behind⟩ := Cursor.next?_of_lexemes next
    obtain ⟨opening, behind⟩ := Cursor.operator?_of_lexemes behind
    obtain ⟨c₁, left, behind⟩ := first.derives behind (by simp)
    obtain ⟨comma, behind⟩ := Cursor.operator?_of_lexemes behind
    obtain ⟨c₂, right, behind⟩ := second.derives behind (by simp)
    obtain ⟨closing, behind⟩ := Cursor.operator?_of_lexemes behind
    exact ⟨_, Derives.expression_of_primary (.call called opening
      (.firstArgument left (.nextArgument comma right (.lastArgument closing)))), behind⟩

/-- A written tree is evaluated from left to right. -/
theorem evaluateCanonicalWith_eq (h : Writes text ls t) (registry : Registry) :
    evaluateCanonicalWith registry text = t.evaluate registry nestingLimit nestingLimit := by
  obtain ⟨tokens, read, lexemes⟩ := h.spells .ending spells_nil 0
  rw [List.append_nil] at read
  obtain ⟨c', derived, behind⟩ := h.derives (c := tokens.start) lexemes (by simp)
  have sentence : tokens.Sentence t := ⟨c', derived, Cursor.atEnd_of_lexemes behind⟩
  rw [evaluateCanonicalWith, Tokens.ofText, read, ok_bind, sentence.value_eq]

end Writes

end Calculator
