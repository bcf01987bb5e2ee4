import Calculator.Proofs.Surface.Pieces
import Calculator.Proofs.Token.Prefix

/-!
# The names of a text

Which names a text has is found from left to right, because a name goes on with digits, while a digit
in front of a name belongs to a numeral or to another name. So the character before a letter does not
always tell whether a name starts there: behind a digit it may start or go on.
-/
namespace Calculator

/-- The names and their positions, after `skip` more characters of the lexeme before. A character at
which no lexeme starts is passed over. -/
def namesFrom (skip position : Nat) : List Char → List (Nat × List Char)
  | [] => []
  | c :: rest =>
    match skip with
    | skip + 1 => namesFrom skip (position + 1) rest
    | 0 =>
      match Lexeme.scan? (c :: rest) with
      | none => namesFrom 0 (position + 1) rest
      | some (.name word) => (position, word) :: namesFrom (word.length - 1) (position + 1) rest
      | some lexeme => namesFrom (lexeme.text.length - 1) (position + 1) rest

/-- The names of a text with their positions. -/
def names (text : List Char) : List (Nat × List Char) :=
  namesFrom 0 0 text

/-- A lexeme that is a name. -/
def Lexeme.name? : Lexeme → Option (List Char)
  | .name word => some word
  | _ => none

/-- The names among the tokens, with their positions. -/
def Tokens.names : Tokens → List (Nat × List Char)
  | .finish _ => []
  | .token (.name word) position rest => (position, word) :: rest.names
  | .token _ _ rest => rest.names

/-- A position at which a name starts. -/
def StartsName (text : List Char) (position : Nat) : Prop :=
  ∃ word, (position, word) ∈ names text

/-- A position inside a name, directly behind a digit of it. -/
def ContinuesName (text : List Char) (position : Nat) : Prop :=
  ∃ start word digit, (start, word) ∈ names text ∧ start < position ∧
    position < start + word.length ∧ text[position - 1]? = some digit ∧ digit.isDigit = true

section Scan

variable {rest : List Char} {position : Nat}

theorem namesFrom_none {c : Char} (h : Lexeme.scan? (c :: rest) = none) :
    namesFrom 0 position (c :: rest) = namesFrom 0 (position + 1) rest := by
  rw [namesFrom, h]

theorem namesFrom_lexeme {c : Char} {lexeme : Lexeme} (h : Lexeme.scan? (c :: rest) = some lexeme) :
    namesFrom 0 position (c :: rest) =
      (lexeme.name?.map fun word => (position, word)).toList ++
        namesFrom (lexeme.text.length - 1) (position + 1) rest := by
  rw [namesFrom, h]
  cases lexeme <;> rfl

end Scan

/-- Where a text can be read, its names are those among its tokens. -/
theorem namesFrom_eq_of_read {skip position : Nat} {text : List Char} {tokens : Tokens}
    (h : Tokens.read skip position text = .ok tokens) :
    namesFrom skip position text = tokens.names := by
  induction text generalizing skip position tokens with
  | nil =>
    cases h
    rfl
  | cons c rest ih =>
    cases skip with
    | succ skip => exact ih h
    | zero =>
      rw [Tokens.read] at h
      split at h
      · rename_i blank
        have nothing : Lexeme.scan? (c :: rest) = none := by
          cases found : Lexeme.scan? (c :: rest) with
          | none => rfl
          | some lexeme =>
            have visible := Lexeme.isBlank_of_scan? found
            rw [blank] at visible
            cases visible
        rw [namesFrom_none nothing]
        exact ih h
      · split at h
        · cases h
        · rename_i lexeme found
          cases further : Tokens.read (lexeme.text.length - 1) (position + 1) rest with
          | error fault =>
            rw [further] at h
            cases h
          | ok behind =>
            rw [further] at h
            cases h
            rw [namesFrom_lexeme found, ih further]
            cases lexeme <;> rfl

theorem names_eq_of_ofText {text : List Char} {tokens : Tokens} (h : Tokens.ofText text = .ok tokens) :
    names text = tokens.names :=
  namesFrom_eq_of_read h

section Position

variable {front rest : List Char} {c : Char} (start : isNameStart c = true) (noMark : c ≠ 'E')

include start noMark

/-- Of the letters only the mark of a power of ten stands in numerals. -/
theorem Numeral.notMem_text_of_letter (n : Numeral) : c ∉ n.text := by
  obtain ⟨digit, -, -⟩ := not_digit_of_isNameStart start
  have marks : ∀ d ∈ ['.', 'E', '+', '-'], isNameStart d = false ∨ d = 'E' :=
    forall_mem_of_all (by decide)
  have others : ∀ d ∈ n.text, d ≠ c := n.forall_mem_text (Digit.char_ne digit) (by
    rintro d member rfl
    rcases marks d member with other | mark
    · rw [start] at other
      cases other
    · exact noMark mark)
  exact fun member => others c member rfl

/-- A lexeme into which a letter falls is a name. -/
theorem Lexeme.isName_of_mem {lexeme : Lexeme} {text : List Char}
    (found : scan? text = some lexeme) (member : c ∈ lexeme.text) :
    ∃ word, lexeme = .name word ∧ IsName word := by
  cases lexeme with
  | name word => exact ⟨word, rfl, (name_of_scan? found).1⟩
  | number n => exact absurd member (n.notMem_text_of_letter start noMark)
  | operator o =>
    have signs : ∀ d ∈ o.text, isNameStart d = false := by
      cases o <;> exact forall_mem_of_all (by decide)
    rw [signs c member] at start
    cases start

/-- A lexeme that reaches over a letter is a name, and what it has in front of the letter too. -/
theorem Lexeme.name_of_reaching {lexeme : Lexeme} {d : Char}
    (found : scan? (d :: (front ++ c :: rest)) = some lexeme)
    (reaching : (d :: front).length < lexeme.text.length) :
    ∃ word e, lexeme = .name word ∧ (d :: front).getLast? = some e ∧ isNameChar e = true := by
  obtain ⟨behind, same⟩ := exists_append_of_scan? found
  rw [← List.cons_append] at same
  obtain ⟨further, reach⟩ : ∃ further, lexeme.text = d :: front ++ c :: further := by
    rcases List.append_eq_append_iff.1 same with ⟨u, whole, -⟩ | ⟨u, whole, split⟩
    · rw [whole, List.length_append] at reaching
      omega
    · cases u with
      | nil =>
        rw [whole, List.append_nil] at reaching
        exact absurd reaching (Nat.lt_irrefl _)
      | cons e u =>
        cases split
        exact ⟨u, whole⟩
  have member : c ∈ lexeme.text := by
    rw [reach]
    exact List.mem_append_right _ List.mem_cons_self
  obtain ⟨word, rfl, isName⟩ := isName_of_mem start noMark found member
  obtain ⟨e, last⟩ : ∃ e, (d :: front).getLast? = some e := ⟨_, List.getLast?_cons⟩
  refine ⟨word, e, rfl, last, isName.all e ?_⟩
  rw [show word = _ from reach]
  exact List.mem_append_left _ (List.mem_of_getLast? last)

/-- Where the letter stands behind a front, a name starts or goes on that the front ends in. -/
theorem namesFrom_at_letter {skip : Nat} (within : skip ≤ front.length) (position : Nat) :
    (∃ word, (position + front.length, word) ∈ namesFrom skip position (front ++ c :: rest)) ∨
      ∃ first word d, (first, word) ∈ namesFrom skip position (front ++ c :: rest) ∧
        first < position + front.length ∧ position + front.length < first + word.length ∧
        front.getLast? = some d ∧ isNameChar d = true := by
  induction front generalizing skip position with
  | nil =>
    obtain ⟨digit, -, point⟩ := not_digit_of_isNameStart start
    obtain rfl : skip = 0 := Nat.le_zero.1 within
    have found : Lexeme.scan? (c :: rest) = some (.name (c :: rest.takeWhile isNameChar)) := by
      rw [Lexeme.scan?, Numeral.scan?_eq_none rest digit point, scanName?, if_pos start]
    rw [List.nil_append, namesFrom_lexeme found]
    exact .inl ⟨_, List.mem_append_left _ (List.mem_singleton.2 rfl)⟩
  | cons d front ih =>
    have place : position + (d :: front).length = position + 1 + front.length := by
      rw [List.length_cons]
      omega
    -- what is found from the next character on is found in the whole text
    have later {skip : Nat} (within : skip ≤ front.length) (before : List (Nat × List Char)) :
        (∃ word, (position + 1 + front.length, word) ∈
          before ++ namesFrom skip (position + 1) (front ++ c :: rest)) ∨
        ∃ first word e, (first, word) ∈
            before ++ namesFrom skip (position + 1) (front ++ c :: rest) ∧
          first < position + 1 + front.length ∧ position + 1 + front.length < first + word.length ∧
          (d :: front).getLast? = some e ∧ isNameChar e = true := by
      rcases ih within (position + 1) with
        ⟨word, member⟩ | ⟨first, word, e, member, after, inside, last, name⟩
      · exact .inl ⟨word, List.mem_append_right _ member⟩
      · exact .inr ⟨first, word, e, List.mem_append_right _ member, after, inside,
          getLast?_of_cons last, name⟩
    rw [place]
    cases skip with
    | succ skip => exact later (Nat.le_of_succ_le_succ within) []
    | zero =>
      cases found : Lexeme.scan? (d :: (front ++ c :: rest)) with
      | none =>
        rw [List.cons_append, namesFrom_none found]
        exact later (Nat.zero_le _) []
      | some lexeme =>
        rw [List.cons_append, namesFrom_lexeme found]
        by_cases reaching : (d :: front).length < lexeme.text.length
        · obtain ⟨word, e, rfl, last, name⟩ := Lexeme.name_of_reaching start noMark found reaching
          refine .inr ⟨position, word, e, List.mem_append_left _ (List.mem_singleton.2 rfl),
            by omega, ?_, last, name⟩
          rw [← place]
          exact Nat.add_lt_add_left reaching position
        · refine later ?_ _
          rw [List.length_cons] at reaching
          omega

/-- A letter behind a boundary starts a name, or stands behind a digit inside a name. -/
theorem startsName_or_continuesName (boundary : isBoundary front.getLast? = true) :
    StartsName (front ++ c :: rest) front.length ∨
      ContinuesName (front ++ c :: rest) front.length := by
  have found : (∃ word, (0 + front.length, word) ∈ namesFrom 0 0 (front ++ c :: rest)) ∨ _ :=
    namesFrom_at_letter start noMark (Nat.zero_le _) 0
  rw [Nat.zero_add] at found
  rcases found with first | ⟨first, word, d, member, after, inside, last, name⟩
  · exact .inl first
  · rw [last] at boundary
    have digit : d.isDigit = true := by
      rcases Bool.or_eq_true_iff.1 name with letter | digit
      · simp [isBoundary, letter] at boundary
      · exact digit
    refine .inr ⟨first, word, d, member, after, inside, ?_, digit⟩
    rw [List.getLast?_eq_getElem?] at last
    rw [List.getElem?_append_left (by omega), last]

end Position

end Calculator
