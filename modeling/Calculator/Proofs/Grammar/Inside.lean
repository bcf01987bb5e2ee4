import Calculator.Proofs.Grammar.Writing
import Calculator.Proofs.Token.Front

/-!
# A sentence inside a longer one

Where a phrase is derived, it is derived too if more lexemes stand behind it, as long as they do not
turn its last name into the name of a call. So the text of a sentence writes its tree in front of
everything that an expression can end at.
-/
namespace Calculator

/-- At the second place stands what stands at the first one, and more lexemes behind it. -/
structure Cursor.Extends (further : List Lexeme) (c d : Cursor) : Prop where
  lexemes : d.rest.lexemes = c.rest.lexemes ++ further
  closed : d.afterClosing = c.afterClosing

section Extension

variable {further : List Lexeme} {c d : Cursor}

/-- What comes next at the first place comes next at the second one, and passing it keeps them
alike. -/
theorem Cursor.extends_advance (same : d.rest.lexemes = c.rest.lexemes ++ further)
    {lexeme : Lexeme} (next : c.next? = some lexeme) :
    d.next? = some lexeme ∧ Extends further c.advance d.advance := by
  obtain ⟨position, found⟩ := rest_of_next? next
  rw [found, Tokens.lexemes, List.cons_append] at same
  obtain ⟨next', behind⟩ := next?_of_lexemes same
  exact ⟨next', behind, by rw [afterClosing_advance next, afterClosing_advance next']⟩

theorem Cursor.operator?_extends (same : d.rest.lexemes = c.rest.lexemes ++ further)
    {operator : Operator} (next : c.operator? = some operator) :
    d.operator? = some operator ∧ Extends further c.advance d.advance := by
  obtain ⟨next', behind⟩ := extends_advance same (next?_of_operator? next)
  exact ⟨operator?_of_next? next', behind⟩

/-- The operator that comes next at the second place comes next at the first one, or starts what is
added. -/
theorem Cursor.operator?_of_extends (same : d.rest.lexemes = c.rest.lexemes ++ further)
    {operator : Operator} (next : d.operator? = some operator)
    (other : further.head? ≠ some (.operator operator)) : c.operator? = some operator := by
  have head := head?_lexemes next
  rw [same] at head
  cases rest : c.rest with
  | finish position =>
    rw [rest] at head
    exact absurd head other
  | token lexeme position behind =>
    rw [rest] at head
    have first : c.next? = some lexeme := by rw [next?, rest]
    rw [Option.some.inj head] at first
    exact operator?_of_next? first

theorem Cursor.StartsAlone.extends (start : c.StartsAlone) (e : Extends further c d) :
    d.StartsAlone := by
  cases start with
  | name next => exact .name (extends_advance e.lexemes next).1
  | opening next => exact .opening (operator?_extends e.lexemes next).1
  | number next behind =>
    rw [← e.closed] at behind
    exact .number (extends_advance e.lexemes next).1 behind

/-- A phrase is derived as well with more lexemes behind it. Whether a parenthesis has just been
closed matters only where the phrase may be empty. -/
theorem Derives.extends (apart : further.head? ≠ some (.operator .opening)) {category : Category}
    {t : Syntax} {c' : Cursor} (h : Derives category c t c') {d : Cursor}
    (same : d.rest.lexemes = c.rest.lexemes ++ further)
    (closed : category.least = 0 → d.afterClosing = c.afterClosing) :
    ∃ d', Derives category d t d' ∧ Cursor.Extends further c' d' := by
  induction h generalizing d with
  | number next =>
    obtain ⟨next', e⟩ := Cursor.extends_advance same next
    exact ⟨_, .number next', e⟩
  | constant next alone =>
    obtain ⟨next', e⟩ := Cursor.extends_advance same next
    exact ⟨_, .constant next' fun opening =>
      alone (Cursor.operator?_of_extends e.lexemes opening apart), e⟩
  | group opening expression closing ih =>
    obtain ⟨opening', inside⟩ := Cursor.operator?_extends same opening
    obtain ⟨_, derived, e⟩ := ih inside.lexemes fun _ => inside.closed
    obtain ⟨closing', behind⟩ := Cursor.operator?_extends e.lexemes closing
    exact ⟨_, .group opening' derived closing', behind⟩
  | call next opening arguments ih =>
    obtain ⟨next', e⟩ := Cursor.extends_advance same next
    obtain ⟨opening', inside⟩ := Cursor.operator?_extends e.lexemes opening
    obtain ⟨_, derived, behind⟩ := ih inside.lexemes fun _ => inside.closed
    exact ⟨_, .call next' opening' derived, behind⟩
  | noArguments closing =>
    obtain ⟨closing', e⟩ := Cursor.operator?_extends same closing
    exact ⟨_, .noArguments closing', e⟩
  | firstArgument expression more ih₁ ih₂ =>
    obtain ⟨_, first, e⟩ := ih₁ same fun empty => absurd empty (by decide)
    obtain ⟨_, derived, behind⟩ := ih₂ e.lexemes fun _ => e.closed
    exact ⟨_, .firstArgument first derived, behind⟩
  | nextArgument comma expression more ih₁ ih₂ =>
    obtain ⟨comma', e⟩ := Cursor.operator?_extends same comma
    obtain ⟨_, next, e⟩ := ih₁ e.lexemes fun _ => e.closed
    obtain ⟨_, derived, behind⟩ := ih₂ e.lexemes fun _ => e.closed
    exact ⟨_, .nextArgument comma' next derived, behind⟩
  | lastArgument closing =>
    obtain ⟨closing', e⟩ := Cursor.operator?_extends same closing
    exact ⟨_, .lastArgument closing', e⟩
  | signed symbol unary ih =>
    obtain ⟨symbol', e⟩ := Cursor.operator?_extends same symbol
    obtain ⟨_, derived, behind⟩ := ih e.lexemes fun _ => e.closed
    exact ⟨_, .signed symbol' derived, behind⟩
  | unsigned primary ih =>
    obtain ⟨_, derived, behind⟩ := ih same fun empty => absurd empty (by decide)
    exact ⟨_, .unsigned derived, behind⟩
  | raised unary symbol power ih₁ ih₂ =>
    obtain ⟨_, base, e⟩ := ih₁ same fun empty => absurd empty (by decide)
    obtain ⟨symbol', e⟩ := Cursor.operator?_extends e.lexemes symbol
    obtain ⟨_, exponent, behind⟩ := ih₂ e.lexemes fun _ => e.closed
    exact ⟨_, .raised base symbol' exponent, behind⟩
  | base unary ih =>
    obtain ⟨_, derived, behind⟩ := ih same fun empty => absurd empty (by decide)
    exact ⟨_, .base derived, behind⟩
  | term power factors ih₁ ih₂ =>
    obtain ⟨_, first, e⟩ := ih₁ same fun empty => absurd empty (by decide)
    obtain ⟨_, derived, behind⟩ := ih₂ e.lexemes fun _ => e.closed
    exact ⟨_, .term first derived, behind⟩
  | factor written symbol power factors ih₁ ih₂ =>
    obtain ⟨symbol', e⟩ := Cursor.operator?_extends same symbol
    obtain ⟨_, right, e⟩ := ih₁ e.lexemes fun _ => e.closed
    obtain ⟨_, derived, behind⟩ := ih₂ e.lexemes fun _ => e.closed
    exact ⟨_, .factor written symbol' right derived, behind⟩
  | implicitFactor start power factors ih₁ ih₂ =>
    have start' := start.extends ⟨same, closed rfl⟩
    obtain ⟨_, right, e⟩ := ih₁ same fun empty => absurd empty (by decide)
    obtain ⟨_, derived, behind⟩ := ih₂ e.lexemes fun _ => e.closed
    exact ⟨_, .implicitFactor start' right derived, behind⟩
  | noFactor => exact ⟨d, .noFactor, same, closed rfl⟩
  | expression term terms ih₁ ih₂ =>
    obtain ⟨_, first, e⟩ := ih₁ same fun empty => absurd empty (by decide)
    obtain ⟨_, derived, behind⟩ := ih₂ e.lexemes fun _ => e.closed
    exact ⟨_, .expression first derived, behind⟩
  | furtherTerm symbol term terms ih₁ ih₂ =>
    obtain ⟨symbol', e⟩ := Cursor.operator?_extends same symbol
    obtain ⟨_, right, e⟩ := ih₁ e.lexemes fun _ => e.closed
    obtain ⟨_, derived, behind⟩ := ih₂ e.lexemes fun _ => e.closed
    exact ⟨_, .furtherTerm symbol' right derived, behind⟩
  | noTerm => exact ⟨d, .noTerm, same, closed rfl⟩

end Extension

/-! ## Texts -/

theorem Delimits.inert {rest : List Char} (h : Delimits rest) : Inert rest := by
  cases h with
  | ending => exact inert_nil
  | closing rest => exact inert_cons rest (by decide) (by decide)
  | comma rest => exact inert_cons rest (by decide) (by decide)

theorem Leads.unique {text : List Char} {ls ls' : List Lexeme} (h : Leads text ls [])
    (h' : Leads text ls' []) : ls = ls' := by
  obtain ⟨tokens, read, same⟩ := h.spells spells_nil 0
  obtain ⟨tokens', read', same'⟩ := h'.spells spells_nil 0
  rw [read] at read'
  cases read'
  rw [List.append_nil] at same same'
  rw [← same, same']

/-- What is read from a text to its end is read in front of a rest where nothing goes on. -/
theorem Leads.before {text rest : List Char} {ls : List Lexeme} (h : Leads text ls [])
    (inert : Inert rest) (stops : StopsName rest) : Leads (text ++ rest) ls rest := by
  have ending : Inert [] ∧ StopsName [] := ⟨inert_nil, fun c head => by cases head⟩
  rcases (readAlone_of_inert text).leads with ⟨ls', leads⟩ | refused
  · have alone := leads [] ending
    rw [List.append_nil] at alone
    rw [h.unique alone]
    exact leads rest ⟨inert, stops⟩
  · obtain ⟨tokens, read, -⟩ := h.spells spells_nil 0
    obtain ⟨fault, refusal, -⟩ := refused [] ending 0
    rw [List.append_nil, read] at refusal
    cases refusal

theorem leads_blanks {blanks : List Char} (blank : ∀ c ∈ blanks, isBlank c = true)
    (rest : List Char) : Leads (blanks ++ rest) [] rest := by
  induction blanks with
  | nil => exact .here rest
  | cons c blanks ih =>
    exact .blank (blank c List.mem_cons_self)
      (ih fun d member => blank d (List.mem_cons_of_mem _ member))

/-- Blanks behind a text are passed over. -/
theorem Leads.before_blanks {text blanks : List Char} {ls : List Lexeme} (h : Leads text ls [])
    (blank : ∀ c ∈ blanks, isBlank c = true) : Leads (text ++ blanks) ls [] := by
  cases blanks with
  | nil =>
    rw [List.append_nil]
    exact h
  | cons c blanks =>
    have first := blank c List.mem_cons_self
    have mark : c ∉ ['.', 'E', '+', '-', '*'] := by
      have visible : ∀ d ∈ ['.', 'E', '+', '-', '*'], isBlank d = false :=
        forall_mem_of_all (by decide)
      intro member
      rw [visible c member] at first
      cases first
    have inert := inert_cons blanks (digitValue?_of_isBlank first) mark
    have stops : StopsName (c :: blanks) := by
      intro d head
      cases head
      exact isNameChar_of_isBlank first
    have trail := leads_blanks blank []
    rw [List.append_nil] at trail
    have whole := (h.before inert stops).trans trail
    rw [List.append_nil] at whole
    exact whole

/-- A text that is read as a sentence writes the tree of the sentence. -/
theorem Tokens.Sentence.writes {tokens : Tokens} {t : Syntax} (h : tokens.Sentence t)
    {text : List Char} (read : Leads text tokens.lexemes []) : Writes text tokens.lexemes t where
  spells delimits spelled := (read.before delimits.inert delimits.stopsName).spells spelled
  derives {c ls} next alone := by
    obtain ⟨c', derived, atEnd⟩ := h
    obtain ⟨position, finished⟩ := Cursor.rest_of_next?_none atEnd
    obtain ⟨d', derived', e⟩ := derived.extends alone next fun empty => absurd empty (by decide)
    have behind := e.lexemes
    rw [finished] at behind
    exact ⟨d', derived', behind⟩

end Calculator
