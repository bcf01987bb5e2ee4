import Calculator.Proofs.Token.Spelling

/-!
# Reading the front of a text

Which lexeme is taken first is decided by the text up to where nothing goes on with a numeral or a
times sign; only a name may go on there. Reading comes from the front of a text to what stands behind
it, with what really stands there in view, so that no lexeme is cut in two.
-/
namespace Calculator

/-- Neither a numeral nor a times sign in front goes on here. -/
structure Inert (rest : List Char) : Prop where
  noDigit : rest.head?.bind Digit.ofChar? = none
  noMark : ∀ c ∈ ['.', 'E', '+', '-', '*'], rest.head? ≠ some c

theorem inert_nil : Inert [] where
  noDigit := rfl
  noMark c member h := by cases h

theorem inert_cons {c : Char} (rest : List Char) (digit : digitValue? c = none)
    (mark : c ∉ ['.', 'E', '+', '-', '*']) : Inert (c :: rest) where
  noDigit := Digit.ofChar?_eq_none digit
  noMark d member h := by
    cases h
    exact mark member

theorem Inert.stops {rest : List Char} (h : Inert rest) : Numeral.Stops rest where
  noDigit := h.noDigit
  noPoint := h.noMark _ (by decide)
  noPower := h.noMark _ (by decide)

/-- No sign comes next. -/
def NoSign (rest : List Char) : Prop :=
  rest.head? ≠ some '+' ∧ rest.head? ≠ some '-'

theorem Inert.noSign {rest : List Char} (h : Inert rest) : NoSign rest :=
  ⟨h.noMark _ (by decide), h.noMark _ (by decide)⟩

section Scan

variable {rest : List Char}

theorem Digit.takeRun_append (cs : List Char) (stop : rest.head?.bind ofChar? = none) :
    takeRun (cs ++ rest) = ((takeRun cs).1, (takeRun cs).2 ++ rest) := by
  induction cs with
  | nil => exact takeRun_text_append [] stop
  | cons c cs ih =>
    simp only [List.cons_append, takeRun, ih]
    cases ofChar? c <;> rfl

theorem Sign.scan_append_rest (cs : List Char) (noSign : cs = [] → NoSign rest) :
    Sign.scan (cs ++ rest) = ((Sign.scan cs).1, (Sign.scan cs).2 ++ rest) := by
  cases cs with
  | nil => exact Sign.scan_append none (noSign rfl).1 (noSign rfl).2
  | cons c cs =>
    by_cases plus : c = '+'
    · rw [plus]
      rfl
    · by_cases minus : c = '-'
      · rw [minus]
        rfl
      · simp [Sign.scan, plus, minus]

theorem PowerOfTen.scan?_append (cs : List Char) (stops : Numeral.Stops rest)
    (noSign : cs.getLast? = some 'E' → NoSign rest) :
    scan? (cs ++ rest) = (scan? cs).map fun found => (found.1, found.2 ++ rest) := by
  cases cs with
  | nil => exact scan?_eq_none stops.noPower
  | cons c cs =>
    by_cases mark : c = 'E'
    · have alone : cs = [] → NoSign rest := by
        rintro rfl
        rw [mark] at noSign
        exact noSign rfl
      simp only [mark, List.cons_append, scan?, Sign.scan_append_rest cs alone,
        Digit.takeRun_append _ stops.noDigit]
      split <;> rfl
    · rw [List.cons_append, scan?_eq_none (by simpa using mark), scan?_eq_none (by simpa using mark)]
      rfl

theorem Numeral.scanFraction_append_rest (cs : List Char) (stops : Stops rest) :
    scanFraction (cs ++ rest) = ((scanFraction cs).1, (scanFraction cs).2 ++ rest) := by
  cases cs with
  | nil => exact scanFraction_append none stops.noDigit stops.noPoint
  | cons c cs =>
    by_cases point : c = '.'
    · simp only [point, List.cons_append, scanFraction, Digit.takeRun_append _ stops.noDigit]
    · simp [scanFraction, point]

/-- A numeral in front goes on only with a digit, a point, a mark or the sign behind a mark. -/
theorem Numeral.scan?_append (cs : List Char) (stops : Stops rest)
    (noSign : cs.getLast? = some 'E' → NoSign rest) :
    scan? (cs ++ rest) = (scan? cs).map fun found => (found.1, found.2 ++ rest) := by
  have behind : (scanFraction (Digit.takeRun cs).2).2.getLast? = some 'E' → NoSign rest := by
    intro last
    have whole := Digit.text_append_takeRun cs
    have fraction := fractionText_append_scanFraction (Digit.takeRun cs).2
    apply noSign
    rw [← whole, ← fraction, List.getLast?_append, List.getLast?_append, last]
    rfl
  simp only [scan?, Digit.takeRun_append cs stops.noDigit, scanFraction_append_rest _ stops,
    PowerOfTen.scan?_append _ stops behind]
  split
  · cases PowerOfTen.scan? (scanFraction (Digit.takeRun cs).2).2 <;> rfl
  · rfl

/-- Only a times sign looks at what follows it. -/
theorem Operator.scan?_cons (c : Char) (rest : List Char) :
    scan? (c :: rest) =
      if c = '*' ∧ rest.head? = some '*' then some .power else scan? [c] := by
  by_cases times : c = '*'
  · rw [times]
    cases rest with
    | nil => rfl
    | cons d rest =>
      by_cases second : d = '*'
      · rw [second]
        rfl
      · simp [scan?, second]
  · simp only [times, false_and, if_false]
    unfold scan?
    split <;> simp_all

theorem Operator.scan?_append {cs : List Char} (nonempty : cs ≠ []) (single : rest.head? ≠ some '*') :
    scan? (cs ++ rest) = scan? cs := by
  cases cs with
  | nil => exact absurd rfl nonempty
  | cons c cs =>
    rw [List.cons_append, scan?_cons, scan?_cons c cs]
    cases cs with
    | nil => simp [single]
    | cons d cs => rfl

/-- A name goes on with what follows only if it reaches there. -/
theorem scanName?_append {cs : List Char} (nonempty : cs ≠ [])
    (ends : scanName? cs = some cs → StopsName rest) :
    scanName? (cs ++ rest) = scanName? cs := by
  cases cs with
  | nil => exact absurd rfl nonempty
  | cons c cs =>
    simp only [List.cons_append, scanName?] at *
    split
    · rename_i start
      rw [if_pos start] at ends
      congr 2
      by_cases whole : cs.takeWhile isNameChar = cs
      · have all : ∀ d ∈ cs, isNameChar d = true := by
          intro d member
          rw [← whole] at member
          exact List.all_eq_true.1 List.all_takeWhile d member
        rw [Lexeme.takeWhile_isNameChar all (ends (by rw [whole])), whole]
      · rw [List.takeWhile_append, if_neg]
        intro same
        exact whole ((List.takeWhile_prefix _).eq_of_length same)
    · rfl

namespace Lexeme

/-- The first lexeme is found without what follows, unless it is a name that reaches there. -/
theorem scan?_append {cs : List Char} (nonempty : cs ≠ []) (inert : Inert rest)
    (ends : scan? cs = some (.name cs) → StopsName rest) : scan? (cs ++ rest) = scan? cs := by
  unfold scan? at *
  rw [Numeral.scan?_append cs inert.stops fun _ => inert.noSign]
  cases numeral : Numeral.scan? cs with
  | some found => rfl
  | none =>
    simp only [numeral] at ends
    have sameName : scanName? (cs ++ rest) = scanName? cs := by
      apply scanName?_append nonempty
      intro whole
      exact ends (by rw [whole])
    simp only [Option.map_none, sameName,
      Operator.scan?_append nonempty (inert.noMark '*' (by decide))]

/-- A name that was found ends where it is followed by something else. -/
theorem name_of_scan? {cs w : List Char} (h : scan? cs = some (.name w)) :
    IsName w ∧ ∃ rest, cs = w ++ rest ∧ StopsName rest := by
  unfold scan? at h
  split at h
  · cases h
  · split at h
    · rename_i word found
      cases h
      cases cs with
      | nil => cases found
      | cons c cs =>
        obtain ⟨start, ⟨⟩⟩ := Option.ite_none_right_eq_some.1 found
        refine ⟨⟨⟨c, rfl, start⟩, fun d => List.all_eq_true.1 List.all_takeWhile d⟩,
          cs.dropWhile isNameChar, ?_, ?_⟩
        · rw [List.cons_append, List.takeWhile_append_dropWhile]
        · intro d head
          have stop := List.head?_dropWhile_not isNameChar cs
          rw [head] at stop
          simpa using stop
    · obtain ⟨operator, -, same⟩ := Option.map_eq_some_iff.1 h
      cases same

end Lexeme

end Scan

/-- Reading the text takes these lexemes and comes to the rest. -/
inductive Leads : List Char → List Lexeme → List Char → Prop
  | here (rest : List Char) : Leads rest [] rest
  | blank {c : Char} {text rest : List Char} {lexemes : List Lexeme} (h : isBlank c = true)
      (further : Leads text lexemes rest) : Leads (c :: text) lexemes rest
  | lexeme (lexeme : Lexeme) {text rest : List Char} {lexemes : List Lexeme}
      (h : Lexeme.scan? (lexeme.text ++ text) = some lexeme)
      (further : Leads text lexemes rest) : Leads (lexeme.text ++ text) (lexeme :: lexemes) rest

/-- Nothing is read from the text, because a character in it starts no lexeme. -/
def Unreadable (text : List Char) : Prop :=
  ∀ position, ∃ fault, Tokens.read 0 position text = .error fault ∧ fault.kind = .malformed

namespace Leads

variable {text middle rest : List Char} {lexemes further : List Lexeme}

theorem trans (first : Leads text lexemes middle) (last : Leads middle further rest) :
    Leads text (lexemes ++ further) rest := by
  induction first with
  | here => exact last
  | blank h _ ih => exact .blank h (ih last)
  | lexeme lexeme h _ ih => exact .lexeme lexeme h (ih last)

theorem spells (h : Leads text lexemes rest) (spelled : Spells rest further) :
    Spells text (lexemes ++ further) := by
  induction h with
  | here => exact spelled
  | blank h _ ih => exact (ih spelled).blank h
  | lexeme lexeme h _ ih => exact (ih spelled).lexeme lexeme h

theorem unreadable (h : Leads text lexemes rest) (failing : Unreadable rest) : Unreadable text := by
  induction h with
  | here => exact failing
  | blank h _ ih =>
    intro position
    rw [Tokens.read_blank h]
    exact ih failing (position + 1)
  | @lexeme lexeme text _ _ h _ ih =>
    intro position
    obtain ⟨fault, read, kind⟩ := ih failing (position + lexeme.text.length)
    exact ⟨fault, by rw [Tokens.read_lexeme h, read, map_failure], kind⟩

theorem number (n : Numeral) (stops : Numeral.Stops rest) :
    Leads (n.text ++ rest) [.number n] rest :=
  .lexeme (.number n) (Lexeme.scan?_number n stops) (.here rest)

theorem name {name : List Char} (h : IsName name) (stops : StopsName rest) :
    Leads (name ++ rest) [.name name] rest :=
  .lexeme (.name name) (Lexeme.scan?_name h stops) (.here rest)

theorem operator (o : Operator) (single : o = .times → rest.head? ≠ some '*') :
    Leads (o.text ++ rest) [.operator o] rest :=
  .lexeme (.operator o) (Lexeme.scan?_operator o single) (.here rest)

end Leads

theorem leads_opening {rest : List Char} : Leads ('(' :: rest) [.operator .opening] rest :=
  .operator .opening (by intro h; cases h)

theorem leads_closing {rest : List Char} : Leads (')' :: rest) [.operator .closing] rest :=
  .operator .closing (by intro h; cases h)

theorem unreadable_of_scan? {c : Char} {rest : List Char} (visible : isBlank c = false)
    (h : Lexeme.scan? (c :: rest) = none) : Unreadable (c :: rest) := by
  intro position
  refine ⟨.unexpectedCharacter c position, ?_, rfl⟩
  rw [Tokens.read, visible, h]
  rfl

end Calculator
