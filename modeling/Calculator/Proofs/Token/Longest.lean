import Calculator.Proofs.Token.Prefix

/-!
# The longest lexeme

Where a text starts with numerals, names or operators, the lexeme that is taken is the longest of
them, and where none is taken the text starts with none. What is written as a numeral in front of a
text may go on there, so the numeral that is taken leaves at most that text behind it.
-/
namespace Calculator

/-! ## Numerals -/

theorem Digit.takeRun_suffix (cs : List Char) : (takeRun cs).2 <:+ cs :=
  ⟨_, text_append_takeRun cs⟩

theorem Digit.head?_cons {c : Char} (h : digitValue? c = none) (rest : List Char) :
    (c :: rest).head?.bind ofChar? = none :=
  ofChar?_eq_none h

/-- A run of digits goes on with the digits behind it. -/
theorem Digit.takeRun_text (digits : List Digit) (rest : List Char) :
    takeRun (text digits ++ rest) = (digits ++ (takeRun rest).1, (takeRun rest).2) := by
  induction digits with
  | nil => rfl
  | cons d digits ih =>
    simp only [text, List.map_cons, List.cons_append, takeRun, ofChar?_char]
    rw [← text, ih]

/-- Where a power of ten stands, one is taken, with the digits behind it. -/
theorem PowerOfTen.exists_scan? (p : PowerOfTen) (rest : List Char) :
    ∃ q tail, scan? (p.text ++ rest) = some (q, tail) ∧ tail <:+ rest := by
  obtain ⟨sign, digits, digits_ne_nil⟩ := p
  match digits, digits_ne_nil with
  | d :: digits, digits_ne_nil =>
    have plus : (Digit.text (d :: digits) ++ rest).head? ≠ some '+' := by
      simpa [Digit.text] using Digit.char_ne (by decide) d
    have minus : (Digit.text (d :: digits) ++ rest).head? ≠ some '-' := by
      simpa [Digit.text] using Digit.char_ne (by decide) d
    have more : d :: digits ++ (Digit.takeRun rest).1 ≠ [] := List.cons_ne_nil _ _
    refine ⟨⟨sign, _, more⟩, _, ?_, Digit.takeRun_suffix rest⟩
    simp only [text, List.cons_append, List.append_assoc, scan?,
      Sign.scan_append sign plus minus, Digit.takeRun_text]
    rfl

namespace Numeral

variable {cs behind rest : List Char} {whole : List Digit} {fraction : Option (List Digit)}

theorem scanFraction_suffix (cs : List Char) : (scanFraction cs).2 <:+ cs :=
  ⟨_, fractionText_append_scanFraction cs⟩

/-- Behind its digits a numeral ends, or goes on with a power of ten. -/
theorem exists_scan?_of_digits (run : Digit.takeRun cs = (whole, behind))
    (point : scanFraction behind = (fraction, rest)) (digits : whole ++ fraction.getD [] ≠ []) :
    ∃ n tail, scan? cs = some (n, tail) ∧ tail <:+ rest ∧
      ∀ p further, PowerOfTen.scan? rest = some (p, further) → tail = further := by
  unfold scan?
  simp only [run, point, dif_pos digits]
  cases power : PowerOfTen.scan? rest with
  | some found =>
    obtain ⟨p, tail⟩ := found
    refine ⟨_, tail, rfl, ⟨_, PowerOfTen.text_append_of_scan? power⟩, ?_⟩
    rintro p' further ⟨⟩
    rfl
  | none =>
    refine ⟨_, rest, rfl, List.suffix_rfl, ?_⟩
    rintro p further ⟨⟩

/-- Where a numeral stands, one is taken, and nothing of it is left. -/
theorem exists_scan? (n : Numeral) (rest : List Char) :
    ∃ m tail, scan? (n.text ++ rest) = some (m, tail) ∧ tail <:+ rest := by
  obtain ⟨whole, fraction, power, digits_ne_nil⟩ := n
  simp only [text, List.append_assoc]
  cases power with
  | some p =>
    -- the mark ends the digits on either side of the point
    have noDigit : (p.text ++ rest).head?.bind Digit.ofChar? = none :=
      Digit.head?_cons (c := 'E') (by decide) _
    have noPoint : (p.text ++ rest).head? ≠ some '.' := by
      simp [PowerOfTen.text]
    have run := Digit.takeRun_text_append whole (head?_fractionText fraction noDigit)
    have point := scanFraction_append fraction noDigit noPoint
    obtain ⟨q, left, found, suffix⟩ := p.exists_scan? rest
    obtain ⟨m, tail, read, -, same⟩ := exists_scan?_of_digits run point digits_ne_nil
    exact ⟨m, tail, read, same q left found ▸ suffix⟩
  | none =>
    cases fraction with
    | some ds =>
      have run := Digit.takeRun_text_append whole
        (Digit.head?_cons (c := '.') (by decide) (Digit.text ds ++ rest))
      have point : scanFraction ('.' :: (Digit.text ds ++ rest)) =
          (some (ds ++ (Digit.takeRun rest).1), (Digit.takeRun rest).2) := by
        simp only [scanFraction, Digit.takeRun_text]
      have digits : whole ++ (some (ds ++ (Digit.takeRun rest).1)).getD [] ≠ [] := by
        rw [Option.getD_some, ← List.append_assoc]
        exact List.append_ne_nil_of_left_ne_nil digits_ne_nil _
      obtain ⟨m, tail, read, suffix, -⟩ := exists_scan?_of_digits run point digits
      exact ⟨m, tail, read, suffix.trans (Digit.takeRun_suffix rest)⟩
    | none =>
      have run := Digit.takeRun_text whole rest
      have digits : whole ++ (Digit.takeRun rest).1 ++
          (scanFraction (Digit.takeRun rest).2).1.getD [] ≠ [] := by
        rw [List.append_assoc]
        rw [Option.getD_none, List.append_nil] at digits_ne_nil
        exact List.append_ne_nil_of_left_ne_nil digits_ne_nil _
      obtain ⟨m, tail, read, suffix, -⟩ := exists_scan?_of_digits run rfl digits
      exact ⟨m, tail, read, suffix.trans ((scanFraction_suffix _).trans (Digit.takeRun_suffix _))⟩

end Numeral

/-! ## Lexemes -/

namespace Lexeme

/-- The lexeme is written as its kind demands: a name as a name. -/
def IsWritten : Lexeme → Prop
  | .name word => IsName word
  | _ => True

/-- The text starts with the lexeme, and with no longer one. -/
structure Longest (text : List Char) (lexeme : Lexeme) : Prop where
  written : lexeme.IsWritten
  starts : lexeme.text <+: text
  longest : ∀ other : Lexeme, other.IsWritten → other.text <+: text →
    other.text.length ≤ lexeme.text.length

/-- The text starts with no lexeme. -/
def StartsNone (text : List Char) : Prop :=
  ∀ lexeme : Lexeme, lexeme.IsWritten → ¬ lexeme.text <+: text

variable {text rest : List Char} {lexeme other : Lexeme}

theorem isWritten_of_scan? (h : scan? text = some lexeme) : lexeme.IsWritten := by
  cases lexeme with
  | number n => trivial
  | name word => exact (name_of_scan? h).1
  | operator o => trivial

/-- A lexeme by itself is taken as what it is. -/
theorem scan?_text (written : lexeme.IsWritten) : scan? lexeme.text = some lexeme := by
  rw [← List.append_nil lexeme.text]
  cases lexeme with
  | number n => exact scan?_number n Numeral.stops_nil
  | name word => exact scan?_name written fun c head => by cases head
  | operator o => exact scan?_operator o fun _ head => by cases head

theorem exists_scan?_number (n : Numeral) (rest : List Char) :
    ∃ found, scan? (n.text ++ rest) = some found ∧ n.text.length ≤ found.text.length := by
  obtain ⟨m, tail, read, suffix⟩ := n.exists_scan? rest
  refine ⟨.number m, by rw [scan?, read], ?_⟩
  have whole := congrArg List.length (Numeral.text_append_of_scan? read)
  have left := suffix.length_le
  simp only [List.length_append] at whole
  change n.text.length ≤ m.text.length
  omega

theorem exists_scan?_name {word : List Char} (h : IsName word) (rest : List Char) :
    ∃ found, scan? (word ++ rest) = some found ∧ word.length ≤ found.text.length := by
  -- the name goes on with what can go on with it in the rest
  have whole : word ++ rest.takeWhile isNameChar ++ rest.dropWhile isNameChar = word ++ rest := by
    rw [List.append_assoc, List.takeWhile_append_dropWhile]
  have longer : IsName (word ++ rest.takeWhile isNameChar) := by
    obtain ⟨⟨c, head, start⟩, further⟩ := h
    obtain ⟨tail, rfl⟩ := List.head?_eq_some_iff.1 head
    refine ⟨⟨c, rfl, start⟩, fun d member => ?_⟩
    rcases List.mem_append.1 member with inside | behind
    · exact further d inside
    · exact List.all_eq_true.1 List.all_takeWhile d behind
  have stops : StopsName (rest.dropWhile isNameChar) := by
    intro c head
    have stop := List.head?_dropWhile_not isNameChar rest
    rw [head] at stop
    simpa using stop
  refine ⟨.name (word ++ rest.takeWhile isNameChar), ?_, ?_⟩
  · rw [← whole, scan?_name longer stops]
  · simp [Lexeme.text]

theorem exists_scan?_operator (o : Operator) (rest : List Char) :
    ∃ found, scan? (o.text ++ rest) = some found ∧ o.text.length ≤ found.text.length := by
  by_cases double : o = .times ∧ rest.head? = some '*'
  · -- two times signs are the power sign
    obtain ⟨rfl, head⟩ := double
    obtain ⟨tail, rfl⟩ := List.head?_eq_some_iff.1 head
    exact ⟨.operator .power, scan?_operator .power (by rintro ⟨⟩), by decide⟩
  · exact ⟨.operator o, scan?_operator o fun times head => double ⟨times, head⟩, Nat.le_refl _⟩

/-- Where a lexeme stands, one is taken that is not shorter. -/
theorem exists_scan? (written : lexeme.IsWritten) (starts : lexeme.text <+: text) :
    ∃ found, scan? text = some found ∧ lexeme.text.length ≤ found.text.length := by
  obtain ⟨rest, rfl⟩ := starts
  cases lexeme with
  | number n => exact exists_scan?_number n rest
  | name word => exact exists_scan?_name written rest
  | operator o => exact exists_scan?_operator o rest

theorem longest_of_scan? (h : scan? text = some lexeme) : Longest text lexeme where
  written := isWritten_of_scan? h
  starts := exists_append_of_scan? h
  longest other written starts := by
    obtain ⟨found, read, longer⟩ := exists_scan? written starts
    rw [h] at read
    cases read
    exact longer

/-- Only one lexeme is the longest at the start of a text. -/
theorem Longest.unique (h : Longest text lexeme) (h' : Longest text other) : lexeme = other := by
  have same : lexeme.text = other.text :=
    (List.prefix_of_prefix_length_le h.starts h'.starts
      (h'.longest lexeme h.written h.starts)).eq_of_length_le
      (h.longest other h'.written h'.starts)
  have read := scan?_text h.written
  rw [same, scan?_text h'.written] at read
  exact (Option.some.inj read).symm

/-- The lexeme that is taken is the longest one. -/
theorem scan?_eq_some_iff : scan? text = some lexeme ↔ Longest text lexeme := by
  refine ⟨longest_of_scan?, fun longest => ?_⟩
  obtain ⟨found, read, -⟩ := exists_scan? longest.written longest.starts
  rw [read, longest.unique (longest_of_scan? read)]

/-- No lexeme is taken only where none stands. -/
theorem scan?_eq_none_iff : scan? text = none ↔ StartsNone text := by
  constructor
  · intro h lexeme written starts
    obtain ⟨found, read, -⟩ := exists_scan? written starts
    rw [h] at read
    cases read
  · intro none
    cases found : scan? text with
    | none => rfl
    | some lexeme =>
      exact absurd (exists_append_of_scan? found) (none lexeme (isWritten_of_scan? found))

end Lexeme

/-- Of a mark without digits nothing is taken, and of two times signs both. -/
example :
    ["1E+x", "1.5E-3", ".5.5", "x2E3.", "***", "."].map (fun text =>
      (Lexeme.scan? text.toList).map Lexeme.text) =
    [some "1", some "1.5E-3", some ".5", some "x2E3", some "**", none].map
      (·.map String.toList) := by decide +kernel

end Calculator
