import Calculator.Proofs.Grouping.Displayed
import Calculator.Proofs.Surface.Literals

/-!
# The last answer in an expression

The name of the last answer is replaced by the literal of its value in parentheses. The literal is
left as it is by everything that comes later, and it is read as its own lexemes, so the value comes
back exactly, whatever it is.
-/
namespace Calculator

/-- The name of the last answer. -/
def answerName : List Char := "ans".toList

/-! ## Blocks -/

theorem block_displayText (x : Binary64) : Block (displayText x) := by
  obtain ⟨lexemes, t, value, operand⟩ := operandText_displayText x
  exact operand.block

namespace Block

variable {text : List Char}

theorem signed (h : Block text) (s : Sign) : Block (NumberFormat.signed s text) := by
  cases s with
  | positive => exact h
  | negative => exact h.negative

/-- A block by itself is its own canonical form. -/
theorem canonical_eq (h : Block text) (mode : AngleMode) (answer : Binary64) :
    canonical mode answer text = text := by
  have replaced : Calculator.substitute answer 0 none (text ++ []) = text ++ [] :=
    h.substitute answer none []
  have expanded : expandOnward mode [] 0 none (text ++ []) = text ++ [] := h.expand mode [] none []
  have trimmed : trimBlanks ([] ++ (text ++ [])) = [] ++ (text ++ []) := by
    obtain ⟨c, rest, rfl, visible⟩ := h.start
    exact trimBlanks_append [] visible h.ending []
  rw [List.append_nil] at replaced expanded trimmed
  rw [List.nil_append] at trimmed
  rw [canonical, trimmed, replaced, expandCalls_eq_expandOnward, expanded]

end Block

/-- No pass changes a literal. -/
theorem block_literal (x : Binary64) : Block (NumberFormat.literal.text x) := by
  rcases NumberFormat.literal_cases x with ⟨-, text⟩ | ⟨s, -, text⟩ | ⟨s, -, n, -, text, -⟩
  · -- what is not finite is displayed by its literal
    rw [text]
    exact block_displayText .nan
  · rw [text]
    exact block_displayText (.infinite s)
  · rw [text]
    exact (operandText_number n).block.signed s

theorem block_enclosedLiteral (x : Binary64) : Block (enclosedLiteral x) :=
  (block_literal x).parenthesized

/-! ## The name in an expression -/

/-- Behind a boundary it does not matter what stands before it. -/
theorem substitute_boundary {w : List Char} (h : isBoundary w.head? = true) (answer : Binary64)
    (before : Option Char) : substitute answer 0 before w = substitute answer 0 none w := by
  cases w with
  | nil => rfl
  | cons c w =>
    have start : isNameStart c = false := by simpa [isBoundary] using h
    have other : ∀ {d : Char} {word : List Char} {before : Option Char}, isNameStart d = true →
        standsAlone (d :: word) before (c :: w) = false := by
      intro d word before letter
      have different : d ≠ c := by
        rintro rfl
        rw [letter] at start
        cases start
      simp [standsAlone, different]
    by_cases pi : c = 'π'
    · rw [pi, substitute_pi, substitute_pi]
    · by_cases power : c = '^'
      · rw [power, substitute_power, substitute_power]
      · rw [substitute_cons pi power (other (by decide)) (other (by decide)),
          substitute_cons pi power (other (by decide)) (other (by decide))]

theorem substitute_answerName {before : Option Char} {w : List Char}
    (front : isBoundary before = true) (behind : isBoundary w.head? = true) (answer : Binary64) :
    substitute answer 0 before (answerName ++ w) =
      enclosedLiteral answer ++ substitute answer 0 none w := by
  have noEuler : standsAlone ['e'] before ('a' :: 'n' :: 's' :: w) = false := by
    simp [standsAlone]
  have alone : standsAlone ['a', 'n', 's'] before ('a' :: 'n' :: 's' :: w) = true := by
    simp [standsAlone, front, behind]
  have name : answerName ++ w = 'a' :: 'n' :: 's' :: w := rfl
  rw [name]
  simp only [substitute, noEuler, alone, if_true]
  rw [if_neg (by decide), if_neg (by decide), if_neg (by decide), substitute_boundary behind]

theorem isBoundary_dropWhile {p : List Char} (h : isBoundary p.getLast? = true) :
    isBoundary (p.dropWhile isBlank).getLast? = true := by
  rcases List.eq_nil_or_concat (p.dropWhile isBlank) with empty | ⟨q, c, same⟩
  · rw [empty]
    rfl
  · rw [← List.takeWhile_append_dropWhile (p := isBlank) (l := p), same,
      List.concat_eq_append, ← List.append_assoc, List.getLast?_concat] at h
    rw [same, List.concat_eq_append, List.getLast?_concat]
    exact h

theorem isBoundary_dropBlankEnd {w : List Char} (h : isBoundary w.head? = true) :
    isBoundary (dropBlankEnd w).head? = true := by
  obtain ⟨blanks, same, -⟩ := exists_append_dropBlankEnd w
  cases left : dropBlankEnd w with
  | nil => rfl
  | cons c rest =>
    rw [same, left] at h
    exact h

/-- The name of the last answer is as good as its literal in parentheses. -/
theorem canonical_answerName {p w : List Char} (front : isBoundary p.getLast? = true)
    (behind : isBoundary w.head? = true) (mode : AngleMode) (answer : Binary64) :
    canonical mode answer (p ++ (answerName ++ w)) =
      canonical mode answer (p ++ (enclosedLiteral answer ++ w)) := by
  have front := isBoundary_dropWhile front
  have behind := isBoundary_dropBlankEnd behind
  have block := block_enclosedLiteral answer
  have before : isBoundary (lastOf none (p.dropWhile isBlank)) = true := by
    rw [lastOf_eq, Option.or_none]
    exact front
  have literal : trimBlanks (p ++ (enclosedLiteral answer ++ w)) =
      p.dropWhile isBlank ++ (enclosedLiteral answer ++ dropBlankEnd w) := by
    obtain ⟨c, rest, same, visible⟩ := block.start
    have ending := block.ending
    rw [same] at ending ⊢
    exact trimBlanks_append p visible ending w
  have name : trimBlanks (p ++ (answerName ++ w)) =
      p.dropWhile isBlank ++ (answerName ++ dropBlankEnd w) :=
    trimBlanks_append p (by decide) (fun c last => by cases last; decide) w
  rw [canonical, canonical, literal, name, substitute_append (Nat.zero_le _) (.inl front),
    substitute_append (Nat.zero_le _) (.inl front), block.substitute,
    substitute_answerName before behind, substitute_boundary behind answer (lastOf _ _)]

/-- The last answer comes back exactly, whatever number it is: by its name, in every angle mode, and
by its literal. Wherever the name stands as a word, it becomes the literal in parentheses, which no
pass changes, and which is read as a sign, if there is one, and one further lexeme. -/
theorem evaluate_answerName (x : Binary64) (mode : AngleMode) :
    evaluate answerName mode x = .ok x ∧
      evaluateCanonical (NumberFormat.literal.text x) = .ok x ∧
      canonical mode x answerName = enclosedLiteral x ∧
      (∃ s lexeme tokens, NumberFormat.literal.text x = NumberFormat.signed s lexeme.text ∧
        Tokens.ofText (enclosedLiteral x) = .ok tokens ∧
        tokens.lexemes = enclosed (s.lexemes ++ [lexeme])) ∧
      ∀ p w : List Char, isBoundary p.getLast? = true → isBoundary w.head? = true →
        canonical mode x (p ++ (answerName ++ w)) =
          canonical mode x (p ++ (enclosedLiteral x ++ w)) := by
  obtain ⟨s, lexeme, text, denotes⟩ := denotes_literal x
  have inserted : canonical mode x answerName = enclosedLiteral x := by
    have typed := canonical_answerName (p := []) (w := []) rfl rfl mode x
    simp only [List.nil_append, List.append_nil] at typed
    rw [typed, (block_enclosedLiteral x).canonical_eq]
  have value : evaluateCanonical (enclosedLiteral x) = .ok x :=
    denotes.group.evaluateCanonical_eq (by decide)
  obtain ⟨tokens, read, lexemes⟩ := denotes.group.tokens
  refine ⟨?_, denotes.evaluateCanonical_eq (by decide), inserted, ⟨s, lexeme, tokens, text, read,
    lexemes⟩, fun p w front behind => canonical_answerName front behind mode x⟩
  have short : ¬ lengthLimit < answerName.length := by decide
  rw [evaluate, evaluateWith, canonicalize, if_neg short, ok_bind, inserted]
  exact value

end Calculator
