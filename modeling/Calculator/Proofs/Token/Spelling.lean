import Calculator.Proofs.Number.Scan
import Calculator.Proofs.Result
import Calculator.Token.Lexer

/-!
# Spelled lexemes are read back

A text that is put together from lexemes is read as these lexemes, provided that none of them goes on
in what follows it. A numeral must not meet a digit, a point or a power of ten, a name no further
character of a name, and a times sign no other one.
-/
namespace Calculator

/-- Every digit of a run is a visible character. -/
theorem isBlank_digitZeros :
    ∀ first ∈ digitZeros, ∀ i < 10, isBlank (Char.ofNat (first + i)) = false := by
  decide +kernel

/-- A blank is no digit. -/
theorem digitValue?_of_isBlank {c : Char} (h : isBlank c = true) : digitValue? c = none := by
  unfold digitValue?
  rw [Option.map_eq_none_iff]
  cases found : digitZeros.find? fun first => first ≤ c.toNat && c.toNat ≤ first + 9 with
  | none => rfl
  | some first =>
    have member := List.mem_of_find?_eq_some found
    have bounds := List.find?_some found
    simp only [Bool.and_eq_true, decide_eq_true_eq] at bounds
    have visible := isBlank_digitZeros first member (c.toNat - first) (by omega)
    rw [Nat.add_sub_cancel' bounds.1, Char.ofNat_toNat, h] at visible
    cases visible

/-- A digit is not blank. -/
theorem Digit.isBlank_char (d : Digit) : isBlank d.char = false := by
  cases blank : isBlank d.char with
  | false => rfl
  | true =>
    have none := digitValue?_of_isBlank blank
    rw [d.isDigit] at none
    cases none

/-- What is needed of the characters below 128. -/
theorem isNameStart_ascii : ∀ n < 128, isNameStart (Char.ofNat n) = true →
    digitValue? (Char.ofNat n) = none ∧ isBlank (Char.ofNat n) = false ∧ Char.ofNat n ≠ '.' := by
  decide +kernel

theorem toNat_lt_of_isNameStart {c : Char} (h : isNameStart c = true) : c.toNat < 128 := by
  have letter : isNameStart c = (decide (c.val ≥ 'A'.val ∧ c.val ≤ 'Z'.val) ||
      (decide (c.val ≥ 'a'.val) && decide (c.val ≤ 'z'.val)) || c == '_') := rfl
  simp only [letter, Bool.or_eq_true, Bool.and_eq_true, decide_eq_true_eq, beq_iff_eq] at h
  rcases h with (⟨-, h⟩ | ⟨-, h⟩) | rfl
  · exact Nat.lt_of_le_of_lt (UInt32.le_iff_toNat_le.1 h) (by decide)
  · exact Nat.lt_of_le_of_lt (UInt32.le_iff_toNat_le.1 h) (by decide)
  · decide

/-- A character at which a name can start is no digit, no blank and no point. -/
theorem not_digit_of_isNameStart {c : Char} (h : isNameStart c = true) :
    digitValue? c = none ∧ isBlank c = false ∧ c ≠ '.' := by
  have ascii := isNameStart_ascii c.toNat (toNat_lt_of_isNameStart h)
  rw [Char.ofNat_toNat] at ascii
  exact ascii h

theorem isNameStart_of_isBlank {c : Char} (h : isBlank c = true) : isNameStart c = false := by
  cases start : isNameStart c with
  | false => rfl
  | true =>
    have visible := (not_digit_of_isNameStart start).2.1
    rw [h] at visible
    cases visible

/-- The digits of names are digits. -/
theorem isSome_digitValue?_of_isDigit {c : Char} (h : c.isDigit = true) :
    (digitValue? c).isSome = true := by
  have ascii : ∀ n < 128, (Char.ofNat n).isDigit = true →
      (digitValue? (Char.ofNat n)).isSome = true := by decide +kernel
  have bounds := h
  simp only [Char.isDigit, Bool.and_eq_true, decide_eq_true_eq] at bounds
  have found := ascii c.toNat (Nat.lt_of_le_of_lt (UInt32.le_iff_toNat_le.1 bounds.2) (by decide))
  rw [Char.ofNat_toNat] at found
  exact found h

theorem isNameChar_of_isBlank {c : Char} (h : isBlank c = true) : isNameChar c = false := by
  have digit : c.isDigit = false := by
    cases digit : c.isDigit with
    | false => rfl
    | true =>
      have value := isSome_digitValue?_of_isDigit digit
      rw [digitValue?_of_isBlank h] at value
      cases value
  rw [isNameChar, isNameStart_of_isBlank h, digit]
  rfl

/-- A numeral starts with a digit or a point. -/
theorem Numeral.scan?_eq_none {c : Char} (rest : List Char) (digit : digitValue? c = none)
    (point : c ≠ '.') : scan? (c :: rest) = none := by
  have noRun : Digit.takeRun (c :: rest) = ([], c :: rest) := by
    rw [Digit.takeRun, Digit.ofChar?_eq_none digit]
  have noFraction : scanFraction (c :: rest) = (none, c :: rest) := by
    unfold scanFraction
    split
    · rename_i same
      exact absurd (List.head_eq_of_cons_eq same) point
    · rfl
  simp [scan?, noRun, noFraction]

theorem Numeral.head?_text_ne (n : Numeral) {c : Char} (digit : digitValue? c = none)
    (point : c ≠ '.') : n.text.head? ≠ some c := by
  intro head
  obtain ⟨rest, same⟩ := List.head?_eq_some_iff.1 head
  have read := Numeral.scan?_text_append n Numeral.stops_nil
  rw [same, List.append_nil, scan?_eq_none rest digit point] at read
  cases read

/-- A text that is a name by itself. -/
structure IsName (name : List Char) : Prop where
  start : ∃ c, name.head? = some c ∧ isNameStart c = true
  further : ∀ c ∈ name.tail, isNameChar c = true

theorem IsName.all {name : List Char} (h : IsName name) : ∀ c ∈ name, isNameChar c = true := by
  obtain ⟨⟨start, head, letter⟩, further⟩ := h
  cases name with
  | nil => cases head
  | cons c name =>
    cases head
    intro d member
    rcases List.mem_cons.1 member with rfl | member
    · rw [isNameChar, letter]
      rfl
    · exact further d member

/-- Nothing here goes on with a name. -/
def StopsName (rest : List Char) : Prop :=
  ∀ c, rest.head? = some c → isNameChar c = false

namespace Lexeme

theorem scan?_number (n : Numeral) {rest : List Char} (stops : Numeral.Stops rest) :
    scan? (n.text ++ rest) = some (.number n) := by
  rw [scan?, Numeral.scan?_text_append n stops]

/-- Characters of a name before something else are taken as far as they go. -/
theorem takeWhile_isNameChar {name rest : List Char} (h : ∀ c ∈ name, isNameChar c = true)
    (stops : StopsName rest) : (name ++ rest).takeWhile isNameChar = name := by
  rw [List.takeWhile_append_of_pos h]
  cases rest with
  | nil => rw [List.takeWhile_nil, List.append_nil]
  | cons c rest =>
    have stop := stops c rfl
    rw [List.takeWhile_cons, stop]
    exact List.append_nil name

theorem scan?_name {name rest : List Char} (h : IsName name) (stops : StopsName rest) :
    scan? (name ++ rest) = some (.name name) := by
  obtain ⟨⟨c, head, start⟩, further⟩ := h
  cases name with
  | nil => cases head
  | cons c' name =>
    cases head
    obtain ⟨digit, -, point⟩ := not_digit_of_isNameStart start
    have taken := takeWhile_isNameChar further stops
    rw [List.tail_cons] at taken
    rw [scan?, List.cons_append, Numeral.scan?_eq_none _ digit point]
    simp only [scanName?, start, if_true, taken]

/-- A times sign is taken only if no other follows it. -/
theorem scan?_operator (o : Operator) {rest : List Char}
    (single : o = .times → rest.head? ≠ some '*') :
    scan? (o.text ++ rest) = some (.operator o) := by
  have noNumeral : Numeral.scan? (o.text ++ rest) = none := by
    cases o <;> exact Numeral.scan?_eq_none _ (by decide) (by decide)
  have noName : scanName? (o.text ++ rest) = none := by
    cases o <;> rfl
  have operator : Operator.scan? (o.text ++ rest) = some o := by
    cases o with
    | times =>
      unfold Operator.scan?
      cases rest with
      | nil => rfl
      | cons c rest =>
        have noTimes : c ≠ '*' := by simpa using single rfl
        simp [Operator.text, noTimes]
    | _ => rfl
  rw [scan?, noNumeral, noName, operator]
  rfl

/-- A character at which a lexeme starts is not blank. -/
theorem isBlank_of_scan? {c : Char} {rest : List Char} {lexeme : Lexeme}
    (h : scan? (c :: rest) = some lexeme) : isBlank c = false := by
  cases blank : isBlank c with
  | false => rfl
  | true =>
    have digit := digitValue?_of_isBlank blank
    have point : c ≠ '.' := by rintro rfl; cases blank
    have start := isNameStart_of_isBlank blank
    rw [scan?, Numeral.scan?_eq_none rest digit point] at h
    simp only [scanName?, start, Bool.false_eq_true, if_false, Option.map_eq_some_iff] at h
    obtain ⟨operator, found, -⟩ := h
    obtain ⟨tail, same⟩ := Operator.exists_append_of_scan? found
    cases operator <;> cases same <;> cases blank

end Lexeme

namespace Tokens

/-- The lexemes without their positions. -/
def lexemes : Tokens → List Lexeme
  | .finish _ => []
  | .token lexeme _ rest => lexeme :: rest.lexemes

theorem length_lexemes (tokens : Tokens) : tokens.lexemes.length = tokens.length := by
  induction tokens with
  | finish position => rfl
  | token lexeme position rest ih => rw [lexemes, List.length_cons, ih, length]

/-- Characters of the lexeme before are passed over. -/
theorem read_skip (skipped rest : List Char) (position : Nat) :
    read skipped.length position (skipped ++ rest) = read 0 (position + skipped.length) rest := by
  induction skipped generalizing position with
  | nil => rfl
  | cons c skipped ih =>
    rw [List.cons_append, List.length_cons, read, ih (position + 1)]
    congr 1
    omega

theorem read_blank {c : Char} (h : isBlank c = true) (rest : List Char) (position : Nat) :
    read 0 position (c :: rest) = read 0 (position + 1) rest := by
  rw [read, if_pos h]

/-- A lexeme is read where it is found, and reading goes on behind it. -/
theorem read_lexeme {lexeme : Lexeme} {rest : List Char}
    (h : Lexeme.scan? (lexeme.text ++ rest) = some lexeme) (position : Nat) :
    read 0 position (lexeme.text ++ rest) =
      (read 0 (position + lexeme.text.length) rest).map (.token lexeme position) := by
  have nonempty := Lexeme.text_ne_nil_of_scan? h
  cases text : lexeme.text with
  | nil => exact absurd text nonempty
  | cons c further =>
    rw [text, List.cons_append] at h
    have visible := Lexeme.isBlank_of_scan? h
    have skip := read_skip further rest (position + 1)
    rw [List.cons_append, read, if_neg (by rw [visible]; exact Bool.false_ne_true), h]
    simp only [text, List.length_cons, Nat.add_sub_cancel, skip]
    rw [show position + 1 + further.length = position + (further.length + 1) by omega]

end Tokens

/-- A text in parentheses. -/
def parenthesized (text : List Char) : List Char :=
  '(' :: text ++ [')']

/-- The text is read as these lexemes, wherever it stands. -/
def Spells (text : List Char) (lexemes : List Lexeme) : Prop :=
  ∀ position, ∃ tokens, Tokens.read 0 position text = .ok tokens ∧ tokens.lexemes = lexemes

theorem spells_nil : Spells [] [] :=
  fun position => ⟨.finish position, rfl, rfl⟩

theorem Spells.blank {c : Char} {rest : List Char} {lexemes : List Lexeme} (h : isBlank c = true)
    (spelled : Spells rest lexemes) : Spells (c :: rest) lexemes := by
  intro position
  rw [Tokens.read_blank h]
  exact spelled (position + 1)

theorem Spells.lexeme (lexeme : Lexeme) {rest : List Char} {lexemes : List Lexeme}
    (h : Lexeme.scan? (lexeme.text ++ rest) = some lexeme) (spelled : Spells rest lexemes) :
    Spells (lexeme.text ++ rest) (lexeme :: lexemes) := by
  intro position
  obtain ⟨tokens, read, same⟩ := spelled (position + lexeme.text.length)
  refine ⟨.token lexeme position tokens, ?_, ?_⟩
  · rw [Tokens.read_lexeme h, read, map_success]
  · rw [Tokens.lexemes, same]

theorem Spells.number (n : Numeral) {rest : List Char} {lexemes : List Lexeme}
    (stops : Numeral.Stops rest) (spelled : Spells rest lexemes) :
    Spells (n.text ++ rest) (.number n :: lexemes) :=
  spelled.lexeme (.number n) (Lexeme.scan?_number n stops)

theorem Spells.name {name rest : List Char} {lexemes : List Lexeme} (h : IsName name)
    (stops : StopsName rest) (spelled : Spells rest lexemes) :
    Spells (name ++ rest) (.name name :: lexemes) :=
  spelled.lexeme (.name name) (Lexeme.scan?_name h stops)

theorem Spells.operator (o : Operator) {rest : List Char} {lexemes : List Lexeme}
    (single : o = .times → rest.head? ≠ some '*') (spelled : Spells rest lexemes) :
    Spells (o.text ++ rest) (.operator o :: lexemes) :=
  spelled.lexeme (.operator o) (Lexeme.scan?_operator o single)

end Calculator
