import Calculator.Proofs.Token.Prefix

/-!
# The front of a text read by itself

A front is read into the same lexemes, or refused, whatever stands behind it, if no lexeme that starts
in it can be seen to go on there. That is so behind the last character of an operator, unless it is
the sign of a power of ten, and before a blank or a parenthesis.
-/
namespace Calculator

/-- The lexeme found at any place in the front does not depend on what stands behind the front. -/
def ReadAlone (front : List Char) (allowed : List Char → Prop) : Prop :=
  ∀ u w, front = u ++ w → w ≠ [] → ∀ rest, allowed rest →
    Lexeme.scan? (w ++ rest) = Lexeme.scan? w

/-- A front is read, or refused, by itself. -/
theorem ReadAlone.leads {front : List Char} {allowed : List Char → Prop}
    (alone : ReadAlone front allowed) :
    (∃ lexemes, ∀ rest, allowed rest → Leads (front ++ rest) lexemes rest) ∨
      ∀ rest, allowed rest → Unreadable (front ++ rest) := by
  -- a lexeme may take several characters, so the induction is on the length of the front
  induction size : front.length using Nat.strongRecOn generalizing front with
  | ind count ih =>
    cases front with
    | nil => exact .inl ⟨[], fun rest _ => .here rest⟩
    | cons c front =>
      cases blank : isBlank c with
      | true =>
        have inner : ReadAlone front allowed := fun u w same =>
          alone (c :: u) w (by rw [same, List.cons_append])
        rcases ih front.length (by simp [← size]) inner rfl with ⟨lexemes, leads⟩ | refused
        · exact .inl ⟨lexemes, fun rest h => .blank blank (leads rest h)⟩
        · exact .inr fun rest h => (Leads.blank blank (.here _)).unreadable (refused rest h)
      | false =>
        have whole := alone [] (c :: front) rfl (List.cons_ne_nil c front)
        cases found : Lexeme.scan? (c :: front) with
        | none =>
          exact .inr fun rest h => unreadable_of_scan? blank ((whole rest h).trans found)
        | some lexeme =>
          obtain ⟨w, same⟩ := Lexeme.exists_append_of_scan? found
          have nonempty := List.length_pos_iff.2 (Lexeme.text_ne_nil_of_scan? found)
          have inner : ReadAlone w allowed := fun u v split =>
            alone (lexeme.text ++ u) v (by rw [← same, split, List.append_assoc])
          have shorter : w.length < count := by
            rw [← size, ← same, List.length_append]
            omega
          have leads : ∀ rest, allowed rest →
              Leads (c :: front ++ rest) [lexeme] (w ++ rest) := by
            intro rest h
            have again := whole rest h
            rw [found, ← same, List.append_assoc] at again
            rw [← same, List.append_assoc]
            exact .lexeme lexeme again (.here _)
          rcases ih w.length shorter inner rfl with ⟨lexemes, further⟩ | refused
          · exact .inl ⟨_, fun rest h => (leads rest h).trans (further rest h)⟩
          · exact .inr fun rest h => (leads rest h).unreadable (refused rest h)

/-- A whole text is read, or refused. -/
theorem leads_or_unreadable (text : List Char) :
    (∃ lexemes, Leads text lexemes []) ∨ Unreadable text := by
  have alone : ReadAlone text (· = []) := by
    rintro u w - - rest rfl
    rw [List.append_nil]
  rcases alone.leads with ⟨lexemes, leads⟩ | refused
  · have whole := leads [] rfl
    rw [List.append_nil] at whole
    exact .inl ⟨lexemes, whole⟩
  · have failing := refused [] rfl
    rw [List.append_nil] at failing
    exact .inr failing

/-- Reading a text to the end takes the lexemes of its tokens. -/
theorem Tokens.leads_of_ofText {text : List Char} {tokens : Tokens}
    (h : Tokens.ofText text = .ok tokens) : Leads text tokens.lexemes [] := by
  rw [Tokens.ofText] at h
  rcases leads_or_unreadable text with ⟨lexemes, leads⟩ | refused
  · obtain ⟨tokens', read, same⟩ := leads.spells spells_nil 0
    rw [h] at read
    cases read
    rw [same, List.append_nil]
    exact leads
  · obtain ⟨fault, read, -⟩ := refused 0
    rw [h] at read
    cases read

/-- Nothing in front of a blank or a parenthesis goes on there. -/
theorem readAlone_of_inert (front : List Char) :
    ReadAlone front fun rest => Inert rest ∧ StopsName rest :=
  fun _ _ _ nonempty _ h => Lexeme.scan?_append nonempty h.1 fun _ => h.2

/-! ## Behind an operator -/

/-- The text ends in a character that ends numerals and names, and is no sign of a power of ten. -/
structure Shuts (front : List Char) (c : Char) : Prop where
  digit : digitValue? c = none
  name : isNameChar c = false
  point : c ≠ '.'
  sign : front.getLast? = some 'E' → c ≠ '+' ∧ c ≠ '-'

namespace Shuts

variable {front : List Char} {c : Char}

theorem stops (h : Shuts front c) (rest : List Char) : Numeral.Stops (c :: rest) := by
  refine Numeral.stops_cons rest h.digit h.point ?_
  rintro rfl
  exact absurd h.name (by decide)

theorem of_append {u w : List Char} (h : Shuts (u ++ w) c) : Shuts w c where
  digit := h.digit
  name := h.name
  point := h.point
  sign last := h.sign (by rw [List.getLast?_append, last]; rfl)

theorem scanName?_append (h : Shuts front c) (rest : List Char) :
    scanName? (front ++ [c] ++ rest) = scanName? (front ++ [c]) := by
  apply Calculator.scanName?_append (by simp)
  intro whole
  have taken : ∀ d ∈ (front ++ [c]).tail, isNameChar d = true := by
    cases same : front ++ [c] with
    | nil => simp at same
    | cons b further =>
      rw [same, scanName?] at whole
      obtain ⟨-, found⟩ := Option.ite_none_right_eq_some.1 whole
      have run := List.tail_eq_of_cons_eq (Option.some.inj found)
      intro d member
      rw [List.tail_cons, ← run] at member
      exact List.all_eq_true.1 List.all_takeWhile d member
  cases front with
  | nil =>
    obtain ⟨start, -⟩ := Option.ite_none_right_eq_some.1 whole
    have name := h.name
    rw [isNameChar, start] at name
    cases name
  | cons b further =>
    have last := taken c (by simp)
    rw [h.name] at last
    cases last

theorem scan?_append (h : Shuts front c) {rest : List Char} (single : rest.head? ≠ some '*') :
    Lexeme.scan? (front ++ [c] ++ rest) = Lexeme.scan? (front ++ [c]) := by
  have noSign : ∀ rest, front.getLast? = some 'E' → NoSign (c :: rest) := by
    intro rest last
    simpa [NoSign] using h.sign last
  have numeral : ∀ rest, Numeral.scan? (front ++ c :: rest) =
      (Numeral.scan? front).map fun found => (found.1, found.2 ++ c :: rest) :=
    fun rest => Numeral.scan?_append front (h.stops rest) (noSign rest)
  have longer := numeral rest
  rw [← List.singleton_append, ← List.append_assoc] at longer
  unfold Lexeme.scan?
  rw [longer, numeral []]
  cases Numeral.scan? front with
  | some found => rfl
  | none =>
    simp only [Option.map_none, h.scanName?_append rest,
      Operator.scan?_append (by simp : front ++ [c] ≠ []) single]

theorem readAlone (h : Shuts front c) :
    ReadAlone (front ++ [c]) fun rest => rest.head? ≠ some '*' := by
  intro u w same nonempty rest single
  obtain ⟨v, d, rfl⟩ := List.eq_nil_or_concat w |>.resolve_left nonempty
  rw [List.concat_eq_append, ← List.append_assoc] at same
  obtain ⟨rfl, last⟩ := List.append_inj' same rfl
  cases last
  rw [List.concat_eq_append]
  exact h.of_append.scan?_append single

end Shuts

/-! ## The last lexeme -/

theorem Leads.lexemes_of_nil {lexemes : List Lexeme} {rest : List Char} (h : Leads [] lexemes rest) :
    lexemes = [] := by
  generalize same : ([] : List Char) = text at h
  cases h with
  | here => rfl
  | blank => cases same
  | lexeme lexeme found =>
    have empty := (List.append_eq_nil_iff.1 same.symm).1
    exact absurd empty (Lexeme.text_ne_nil_of_scan? found)

/-- Where a text ends in a visible character, its last lexeme does. -/
theorem Leads.exists_last {text : List Char} {lexemes : List Lexeme} (h : Leads text lexemes [])
    {c : Char} (last : text.getLast? = some c) (visible : isBlank c = false) :
    ∃ lexeme, lexemes.getLast? = some lexeme ∧ lexeme.text.getLast? = some c ∧
      ∃ rest, Lexeme.scan? (lexeme.text ++ rest) = some lexeme := by
  generalize none : ([] : List Char) = rest at h
  induction h with
  | here =>
    rw [← none] at last
    cases last
  | @blank b text _ lexemes blank further ih =>
    refine ih ?_ none
    rw [List.getLast?_cons] at last
    cases behind : text.getLast? with
    | some d =>
      rw [behind] at last
      exact last
    | none =>
      rw [behind] at last
      obtain rfl : b = c := Option.some.inj last
      rw [blank] at visible
      cases visible
  | @lexeme lexeme text _ lexemes found further ih =>
    rw [List.getLast?_append] at last
    cases behind : text.getLast? with
    | some d =>
      rw [behind] at last
      cases last
      obtain ⟨l, member, ends⟩ := ih behind none
      exact ⟨l, by rw [List.getLast?_cons, member]; rfl, ends⟩
    | none =>
      rw [behind] at last
      obtain rfl := List.getLast?_eq_none_iff.1 behind
      obtain rfl := further.lexemes_of_nil
      exact ⟨lexeme, rfl, last, _, found⟩

/-- A numeral ends in a digit or a point. -/
theorem Numeral.getLast?_text (n : Numeral) :
    n.text.getLast? = some '.' ∨ ∃ d : Digit, n.text.getLast? = some d.char := by
  have digits : ∀ (ds : List Digit), ds ≠ [] → ∀ front : List Char,
      ∃ d : Digit, (front ++ Digit.text ds).getLast? = some d.char := by
    intro ds nonempty front
    obtain ⟨ds, d, rfl⟩ := List.eq_nil_or_concat ds |>.resolve_left nonempty
    exact ⟨d, by simp [Digit.text, List.getLast?_append]⟩
  obtain ⟨whole, fraction, power, nonempty⟩ := n
  cases power with
  | some p =>
    have last := digits p.digits p.digits_ne_nil (Digit.text whole ++ fractionText fraction ++
      ('E' :: (p.sign.map Sign.char).toList))
    rw [List.append_assoc] at last
    exact .inr last
  | none =>
    cases fraction with
    | none =>
      rw [Option.getD_none, List.append_nil] at nonempty
      have last := digits whole nonempty []
      rw [List.nil_append] at last
      simpa [text, fractionText, powerText] using .inr last
    | some ds =>
      by_cases empty : ds = []
      · left
        simp [text, fractionText, powerText, empty, Digit.text]
      · have last := digits ds empty (Digit.text whole ++ ['.'])
        right
        simpa [text, fractionText, powerText] using last

end Calculator
