import Calculator.Fault
import Calculator.Text.Blank

/-!
# Reading tokens

At each character that is not blank the longest numeral, name or operator is taken. A character at
which none of them starts is a fault. A lexeme that was found is the start of the text and never
empty, so that reading always moves on.
-/
namespace Calculator

/-- A character at which a name can start. -/
def isNameStart (c : Char) : Bool :=
  c.isAlpha || c == '_'

/-- A character with which a name can go on. -/
def isNameChar (c : Char) : Bool :=
  isNameStart c || c.isDigit

/-- The longest operator at the start of a text. -/
def Operator.scan? : List Char → Option Operator
  | '*' :: '*' :: _ => some .power
  | '*' :: _ => some .times
  | '+' :: _ => some .plus
  | '-' :: _ => some .minus
  | '/' :: _ => some .divide
  | '%' :: _ => some .modulo
  | '(' :: _ => some .opening
  | ')' :: _ => some .closing
  | ',' :: _ => some .comma
  | _ => none

/-- The longest name at the start of a text. -/
def scanName? : List Char → Option (List Char)
  | [] => none
  | c :: rest => if isNameStart c then some (c :: rest.takeWhile isNameChar) else none

/-- The longest lexeme at the start of a text. -/
def Lexeme.scan? (text : List Char) : Option Lexeme :=
  match Numeral.scan? text with
  | some (numeral, _) => some (.number numeral)
  | none =>
    match scanName? text with
    | some word => some (.name word)
    | none => (Operator.scan? text).map .operator

/-- An operator is the start of the text it was taken from. -/
theorem Operator.exists_append_of_scan? {cs : List Char} {operator : Operator}
    (h : scan? cs = some operator) : ∃ rest, operator.text ++ rest = cs := by
  unfold scan? at h
  split at h <;> cases h <;> exact ⟨_, rfl⟩

/-- A name is the start of the text it was taken from. -/
theorem exists_append_of_scanName? {cs name : List Char} (h : scanName? cs = some name) :
    ∃ rest, name ++ rest = cs := by
  match cs, h with
  | c :: rest, h =>
    obtain ⟨-, ⟨⟩⟩ := Option.ite_none_right_eq_some.1 h
    exact ⟨rest.dropWhile isNameChar, by rw [List.cons_append, List.takeWhile_append_dropWhile]⟩

/-- A lexeme is the start of the text it was taken from. -/
theorem Lexeme.exists_append_of_scan? {cs : List Char} {lexeme : Lexeme}
    (h : scan? cs = some lexeme) : ∃ rest, lexeme.text ++ rest = cs := by
  unfold scan? at h
  split at h
  · rename_i found
    cases h
    exact ⟨_, Numeral.text_append_of_scan? found⟩
  · split at h
    · rename_i found
      cases h
      exact exists_append_of_scanName? found
    · obtain ⟨operator, found, rfl⟩ := Option.map_eq_some_iff.1 h
      exact Operator.exists_append_of_scan? found

/-- A lexeme that was found is not empty. -/
theorem Lexeme.text_ne_nil_of_scan? {cs : List Char} {lexeme : Lexeme}
    (h : scan? cs = some lexeme) : lexeme.text ≠ [] := by
  unfold scan? at h
  split at h
  · cases h
    exact Numeral.text_ne_nil _
  · split at h
    · rename_i found
      cases h
      match cs, found with
      | _ :: _, found =>
        obtain ⟨-, ⟨⟩⟩ := Option.ite_none_right_eq_some.1 found
        exact List.cons_ne_nil _ _
    · obtain ⟨operator, -, rfl⟩ := Option.map_eq_some_iff.1 h
      cases operator <;> exact List.cons_ne_nil _ _

namespace Tokens

/-- Reads on at a position, after `skip` more characters of the lexeme before it. -/
def read (skip position : Nat) : List Char → Except Fault Tokens
  | [] => .ok (.finish position)
  | c :: rest =>
    match skip with
    | skip + 1 => read skip (position + 1) rest
    | 0 =>
      if isBlank c then read 0 (position + 1) rest
      else match Lexeme.scan? (c :: rest) with
        | none => .error (.unexpectedCharacter c position)
        | some lexeme =>
          (read (lexeme.text.length - 1) (position + 1) rest).map (.token lexeme position)

/-- The tokens of a text. -/
def ofText (text : List Char) : Except Fault Tokens :=
  read 0 0 text

end Tokens

end Calculator
