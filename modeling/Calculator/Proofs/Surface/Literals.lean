import Calculator.Proofs.Grammar.Writing
import Calculator.Proofs.Number.Written
import Calculator.Session.LeadingNumber

/-!
# Texts of numbers denote numbers

A text denotes a number if it writes a tree of this value. The texts of numbers do, a minus sign being
a lexeme of its own: a literal denotes the number it is the literal of.
-/
namespace Calculator

/-- The text is read as the lexemes of a tree that has this value and this depth at most. -/
def Denotes (text : List Char) (lexemes : List Lexeme) (levels : Nat) (x : Binary64) : Prop :=
  ∃ t, Writes text lexemes t ∧ t.value? .standard = some x ∧ t.depth ≤ levels

namespace Denotes

variable {text : List Char} {lexemes : List Lexeme} {levels : Nat} {x : Binary64}

theorem evaluateCanonical_eq (h : Denotes text lexemes levels x) (fits : levels ≤ nestingLimit) :
    evaluateCanonical text = .ok x := by
  obtain ⟨t, writes, value, depth⟩ := h
  rw [evaluateCanonical, writes.evaluateCanonicalWith_eq, Syntax.evaluate_eq_ok_iff]
  exact ⟨value, Nat.le_trans depth fits⟩

theorem tokens (h : Denotes text lexemes levels x) :
    ∃ tokens, Tokens.ofText text = .ok tokens ∧ tokens.lexemes = lexemes := by
  obtain ⟨t, writes, -⟩ := h
  have spelled := writes.spells .ending spells_nil 0
  rwa [List.append_nil, List.append_nil] at spelled

theorem group (h : Denotes text lexemes levels x) :
    Denotes (parenthesized text) (enclosed lexemes) (levels + 1) x := by
  obtain ⟨t, writes, value, depth⟩ := h
  exact ⟨.group t, writes.group, value, Nat.succ_le_succ depth⟩

end Denotes

/-- The lexemes of a sign before a number; a plus sign is not written. -/
def Sign.lexemes : Sign → List Lexeme
  | .positive => []
  | .negative => [.operator .minus]

theorem denotes_signed_numeral (s : Sign) (n : Numeral) :
    Denotes (NumberFormat.signed s n.text) (s.lexemes ++ [.number n]) 1 (.ofDecimal s n.decimal) := by
  cases s with
  | positive => exact ⟨_, writes_number n, rfl, Nat.zero_le _⟩
  | negative =>
    refine ⟨_, Writes.signedNumber .negative n, ?_, Nat.le_refl _⟩
    simp only [Syntax.value?, Numeral.value, Binary64.ofDecimal]
    cases n.decimal.toMagnitude? <;> rfl

theorem denotes_nan : Denotes "NaN".toList [.name "NaN".toList] 1 .nan :=
  ⟨_, writes_constant ⟨⟨'N', rfl, by decide⟩, forall_mem_of_all (by decide)⟩, rfl, Nat.zero_le _⟩

theorem denotes_infinity (s : Sign) :
    Denotes (NumberFormat.signed s infinityName) (s.lexemes ++ [.name infinityName]) 1
      (.infinite s) := by
  have isName : IsName infinityName := ⟨⟨'I', rfl, by decide⟩, forall_mem_of_all (by decide)⟩
  cases s with
  | positive => exact ⟨_, writes_constant isName, rfl, Nat.zero_le _⟩
  | negative => exact ⟨_, Writes.signedConstant .negative isName, rfl, Nat.le_refl _⟩

/-- A literal is a sign and one lexeme, and it denotes its number. -/
theorem denotes_literal (x : Binary64) :
    ∃ s lexeme, NumberFormat.literal.text x = NumberFormat.signed s lexeme.text ∧
      Denotes (NumberFormat.literal.text x) (s.lexemes ++ [lexeme]) 1 x := by
  rcases NumberFormat.literal_cases x with ⟨rfl, text⟩ | ⟨s, rfl, text⟩ | ⟨s, m, n, rfl, text, value⟩
  · exact ⟨.positive, .name "NaN".toList, text, denotes_nan⟩
  · exact ⟨s, .name infinityName, text, denotes_infinity s⟩
  · have number := denotes_signed_numeral s n
    have exact : Binary64.ofDecimal s n.decimal = .finite s m := by
      rw [Numeral.value, Binary64.ofDecimal] at value
      rw [Binary64.ofDecimal]
      cases read : n.decimal.toMagnitude? with
      | none =>
        rw [read] at value
        cases value
      | some m' =>
        rw [read] at value
        cases value
        rfl
    rw [exact, ← text] at number
    exact ⟨s, .number n, text, number⟩

end Calculator
