import Calculator.Proofs.Checked.Reading
import Calculator.Proofs.Grammar.Steps
import Calculator.Proofs.Token.Spelling

/-!
# Places in the table

A position and a cursor are the same place if the same tokens follow and the entry before tells
whether a parenthesis was closed. At such a place no look at the table fails, and it shows the token
that comes next.
-/
namespace Calculator

/-- What a lexeme is can be told from its text as far as reading asks for it. -/
structure Legible (lexeme : Lexeme) : Prop where
  nonempty : lexeme.text ≠ []
  closing : lexeme.text = Operator.closing.text → lexeme = .operator .closing

theorem Operator.text_injective {o o' : Operator} (h : o.text = o'.text) : o = o' := by
  cases o <;> cases o' <;> first | rfl | cases h

theorem legible_of_scan? {cs : List Char} {lexeme : Lexeme} (h : Lexeme.scan? cs = some lexeme) :
    Legible lexeme where
  nonempty := Lexeme.text_ne_nil_of_scan? h
  closing text := by
    cases lexeme with
    | operator o => rw [Operator.text_injective text]
    | number n =>
      have noClosing : ∀ c ∈ n.text, c ≠ ')' :=
        Numeral.forall_mem_text (Digit.char_ne (by decide)) (forall_mem_of_all (by decide)) n
      have member : ')' ∈ n.text := by
        rw [show n.text = [')'] from text]
        exact List.mem_singleton.2 rfl
      exact absurd rfl (noClosing ')' member)
    | name word =>
      obtain ⟨rest, split⟩ := Lexeme.exists_append_of_scan? h
      rw [show Lexeme.text (.name word) = [')'] from text] at split
      subst split
      have operator : Lexeme.scan? (Operator.closing.text ++ rest) = some (.operator .closing) :=
        Lexeme.scan?_operator .closing (by intro h; cases h)
      rw [show [')'] ++ rest = Operator.closing.text ++ rest from rfl, operator] at h
      cases h

theorem Tokens.legible_of_read {text : List Char} {skip position : Nat} {tokens : Tokens}
    (h : read skip position text = .ok tokens) : ∀ lexeme ∈ tokens.lexemes, Legible lexeme := by
  induction text generalizing skip position tokens with
  | nil =>
    cases h
    intro lexeme member
    cases member
  | cons c rest ih =>
    cases skip with
    | succ skip => exact ih h
    | zero =>
      rw [read] at h
      split at h
      · exact ih h
      · split at h
        · cases h
        · rename_i found
          obtain ⟨further, read, rfl⟩ := map_eq_ok h
          intro lexeme member
          rcases List.mem_cons.1 member with rfl | member
          · exact legible_of_scan? found
          · exact ih read lexeme member

namespace Cursor

/-- The entry of the token that comes next, or of the end. -/
def entry (c : Cursor) : Entry :=
  match c.rest with
  | .finish position => ⟨.finish, [], position⟩
  | .token lexeme position _ => ⟨lexeme.kind, lexeme.text, position⟩

end Cursor

namespace Checked

/-- A position and a cursor are the same place. -/
structure At (entries : List Entry) (position : Nat) (c : Cursor) : Prop where
  rest : entries.drop position = c.rest.entries
  behind : 0 < position → ∃ previous, entries[position - 1]? = some previous ∧
    (previous.text = Operator.closing.text ↔ c.afterClosing = true)
  legible : ∀ lexeme ∈ c.rest.lexemes, Legible lexeme

namespace At

variable {entries : List Entry} {position : Nat} {c : Cursor}

theorem getElem? (h : At entries position c) : entries[position]? = some c.entry := by
  rw [← List.head?_drop, h.rest]
  unfold Cursor.entry
  cases c.rest <;> rfl

theorem look (h : At entries position c) : look entries position = .ok c.entry := by
  rw [Checked.look, h.getElem?]

theorem pass (h : At entries position c) :
    pass entries position = .ok (c.entry, position + 1) := by
  rw [Checked.pass, h.look]
  rfl

theorem legible_of_next? (h : At entries position c) {lexeme : Lexeme}
    (next : c.next? = some lexeme) : Legible lexeme := by
  obtain ⟨place, found⟩ := Cursor.rest_of_next? next
  apply h.legible
  rw [found]
  exact List.mem_cons_self

theorem entry_of_next? {c : Cursor} {lexeme : Lexeme} (next : c.next? = some lexeme) :
    c.entry.kind = lexeme.kind ∧ c.entry.text = lexeme.text := by
  obtain ⟨place, found⟩ := Cursor.rest_of_next? next
  rw [Cursor.entry, found]
  exact ⟨rfl, rfl⟩

theorem entry_of_end {c : Cursor} (next : c.next? = none) :
    c.entry.kind = .finish ∧ c.entry.text = [] := by
  obtain ⟨place, found⟩ := Cursor.rest_of_next?_none next
  rw [Cursor.entry, found]
  exact ⟨rfl, rfl⟩

/-- One token further both are the same place again. -/
theorem advance (h : At entries position c) {lexeme : Lexeme} (next : c.next? = some lexeme) :
    At entries (position + 1) c.advance := by
  have legible := h.legible_of_next? next
  obtain ⟨kind, text⟩ := entry_of_next? next
  obtain ⟨place, found⟩ := Cursor.rest_of_next? next
  have rest := h.rest
  rw [found, Tokens.entries] at rest
  refine ⟨?_, ?_, ?_⟩
  · rw [← List.tail_drop, rest, List.tail_cons]
  · intro _
    refine ⟨c.entry, by rw [Nat.add_sub_cancel]; exact h.getElem?, ?_⟩
    rw [text]
    have after : c.advance.afterClosing = decide (lexeme = .operator .closing) := by
      unfold Cursor.advance
      rw [found]
    rw [after, decide_eq_true_eq]
    constructor
    · exact legible.closing
    · rintro rfl
      rfl
  · intro further member
    apply h.legible
    rw [found]
    exact List.mem_cons_of_mem _ member

/-- An operator stands where the cursor sees it. -/
theorem atOperator_of (h : At entries position c) {o : Operator} (next : c.operator? = some o)
    {operators : List Operator} (member : o ∈ operators) :
    atOperator entries position operators = .ok true := by
  obtain ⟨kind, text⟩ := entry_of_next? (Cursor.next?_of_operator? next)
  have listed : o.text ∈ operators.map Operator.text := List.mem_map_of_mem member
  rw [atOperator, h.look, ok_bind, kind, text]
  simp [Lexeme.kind, Lexeme.text, listed]

theorem atOperator_of_not (h : At entries position c) {operators : List Operator}
    (absent : ∀ o ∈ operators, c.operator? ≠ some o) :
    atOperator entries position operators = .ok false := by
  rw [atOperator, h.look, ok_bind]
  congr 1
  cases next : c.next? with
  | none =>
    obtain ⟨kind, -⟩ := entry_of_end next
    rw [kind]
    rfl
  | some lexeme =>
    obtain ⟨kind, text⟩ := entry_of_next? next
    rw [kind, text]
    cases lexeme with
    | number n => rfl
    | name word => rfl
    | operator o =>
      have found := Cursor.operator?_of_next? next
      have unlisted : o.text ∉ operators.map Operator.text := by
        intro listed
        obtain ⟨o', member, same⟩ := List.mem_map.1 listed
        rw [Operator.text_injective same] at member
        exact absent o member found
      simp [Lexeme.text, unlisted]

theorem atOperator_single (h : At entries position c) (o : Operator) :
    atOperator entries position [o] = .ok (decide (c.operator? = some o)) := by
  by_cases next : c.operator? = some o
  · rw [h.atOperator_of next List.mem_cons_self, decide_eq_true next]
  · rw [h.atOperator_of_not (by simpa using next), decide_eq_false next]

/-- A position in the table, counted from its end. -/
theorem length_rest (h : At entries position c) :
    position + c.rest.length + 1 = entries.length := by
  have lengths : ∀ tokens : Tokens, tokens.entries.length = tokens.length + 1 := by
    intro tokens
    induction tokens with
    | finish place => rfl
    | token lexeme place rest ih => rw [Tokens.entries, List.length_cons, ih, Tokens.length]
  have rest := congrArg List.length h.rest
  rw [List.length_drop, lengths] at rest
  omega

end At

/-- A reading follows a rule: after a success both are at the same place, at least so many tokens
further, and a fault of the rule is what is reported. -/
def Follows {α : Type} (entries : List Entry) (least position : Nat)
    (read : Except Stop (α × Nat)) (run : Except Fault (α × Cursor)) : Prop :=
  match run with
  | .ok (x, c) => ∃ next, read = .ok (x, next) ∧ position + least ≤ next ∧ At entries next c
  | .error fault => read = .error fault.report

namespace Follows

variable {entries : List Entry} {α β : Type} {least more position : Nat}

theorem ok {x : α} {next : Nat} {c : Cursor} (place : At entries next c)
    (further : position + least ≤ next) :
    Follows entries least position (.ok (x, next)) (.ok (x, c)) :=
  ⟨next, rfl, further, place⟩

theorem error {fault : Fault} :
    Follows entries least position (.error fault.report : Except Stop (α × Nat)) (.error fault) :=
  rfl

/-- Readings that follow rules are joined as the rules are, whatever place the first one starts
at. -/
theorem bind {start : Nat} {read : Except Stop (α × Nat)} {run : Except Fault (α × Cursor)}
    {readNext : α × Nat → Except Stop (β × Nat)}
    {runNext : α × Cursor → Except Fault (β × Cursor)}
    (first : Follows entries least start read run)
    (further : ∀ x next c, start + least ≤ next → At entries next c →
      Follows entries more position (readNext (x, next)) (runNext (x, c))) :
    Follows entries more position (read >>= readNext) (run >>= runNext) := by
  cases run with
  | error fault =>
    rw [show read = .error fault.report from first]
    rfl
  | ok result =>
    obtain ⟨x, c⟩ := result
    obtain ⟨next, same, passed, place⟩ := first
    rw [same]
    exact further x next c passed place

theorem mono {fewer start : Nat} {read : Except Stop (α × Nat)}
    {run : Except Fault (α × Cursor)} (h : Follows entries least start read run)
    (enough : position + fewer ≤ start + least) : Follows entries fewer position read run := by
  cases run with
  | error fault => exact h
  | ok result =>
    obtain ⟨next, same, passed, place⟩ := h
    exact ⟨next, same, Nat.le_trans enough passed, place⟩

end Follows

end Checked

end Calculator
