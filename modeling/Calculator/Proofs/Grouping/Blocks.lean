import Calculator.Proofs.Grouping.Regrouped
import Calculator.Proofs.Surface.Pieces
import Calculator.Proofs.Surface.Rewriting
import Calculator.Proofs.Token.Front

/-!
# A block between two pieces of an expression

A block is a text that both passes leave as it is. In an expression with a block behind an operator
and before one, what stands on the two sides of the block becomes the same whatever the block is, and
in the canonical form an operand is expected where the block stands.
-/
namespace Calculator

/-- An operand may start behind the text: it is empty, or it ends in an opening parenthesis, a comma
or an operator, and that is not the sign of a power of ten. -/
def OperandMayStart (front : List Char) : Prop :=
  ∀ c, front.getLast? = some c → c ∈ ['(', '*', '/', '%', '^', ','] ∨
    c ∈ ['+', '-'] ∧ front.dropLast.getLast? ≠ some 'E'

/-- An operand may end before the text: it is empty, or it starts with a closing parenthesis, a comma
or an operator. -/
def OperandMayEnd (rest : List Char) : Prop :=
  ∀ c, rest.head? = some c → c ∈ [')', ',', '+', '-', '*', '/', '%', '^']

/-- A text, visible at its ends, that both passes leave as it is. -/
structure Block (text : List Char) : Prop where
  start : ∃ c rest, text = c :: rest ∧ isBlank c = false
  ending : ∀ c, text.getLast? = some c → isBlank c = false
  substitute (answer : Binary64) (before : Option Char) (rest : List Char) :
    substitute answer 0 before (text ++ rest) =
      text ++ substitute answer 0 (lastOf before text) rest
  expand (mode : AngleMode) (opened : List Bool) (before : Option Char) (rest : List Char) :
    expandOnward mode opened 0 before (text ++ rest) =
      text ++ expandOnward mode opened 0 (lastOf before text) rest

namespace Block

variable {text : List Char}

theorem of_quiet (start : ∃ c rest, text = c :: rest ∧ isBlank c = false)
    (ending : ∀ c, text.getLast? = some c → isBlank c = false)
    (still : ∀ before, still before text = true) (quiet : ∀ before, quiet before text = true)
    (parentheses : ∀ c ∈ text, c ≠ '(' ∧ c ≠ ')') : Block text where
  start := start
  ending := ending
  substitute _ before rest := substitute_still_append (still before) rest
  expand _ _ before _ := expandOnward_plain (plain_of_quiet (quiet before) parentheses)

theorem parenthesized (h : Block text) : Block (parenthesized text) where
  start := ⟨'(', text ++ [')'], rfl, by decide⟩
  ending c last := by
    rw [Calculator.parenthesized, List.getLast?_concat] at last
    cases last
    decide
  substitute answer before rest := by
    simp only [Calculator.parenthesized, List.cons_append, List.append_assoc, List.nil_append]
    rw [substitute_plain (by decide), h.substitute, substitute_plain (by decide)]
    simp only [lastOf, lastOf_append]
  expand mode opened before rest := by
    have inside : expandOnward mode opened 0 before ('(' :: (text ++ ')' :: rest)) = _ :=
      expandOnward_opening before _
    rw [h.expand, expandOnward_closing] at inside
    simp only [Calculator.parenthesized, List.cons_append, List.append_assoc, List.nil_append]
    rw [inside]
    simp only [List.headD_cons, AngleMode.closing_false, List.tail_cons, List.nil_append, lastOf,
      lastOf_append]

/-- A sign in front of a block stays as well. -/
theorem sign (h : Block text) (s : Sign) : Block (s.char :: text) where
  start := ⟨s.char, text, rfl, by cases s <;> decide⟩
  ending := by
    obtain ⟨c, rest, rfl, -⟩ := h.start
    rw [List.getLast?_cons_cons]
    exact h.ending
  substitute answer before rest := by
    rw [List.cons_append, substitute_plain (by cases s <;> decide), h.substitute]
    rfl
  expand mode opened before rest := by
    have sign : Plain (text ++ rest) before [s.char] :=
      ⟨callAt?_eq_none _ (.inl (by cases s <;> decide)), by cases s <;> decide,
        by cases s <;> decide, trivial⟩
    rw [List.cons_append, ← List.singleton_append, expandOnward_plain sign, h.expand]
    rfl

theorem negative (h : Block text) : Block ('-' :: text) :=
  h.sign .negative

end Block

/-! ## In front of the block -/

/-- What an operand is expected behind in a canonical form. -/
inductive Expecting : List Char → Prop
  | nothing : Expecting []
  | operator {front : List Char} {c : Char} (shuts : Shuts front c)
      (member : c ∈ ['(', '*', '/', '%', ',', '+', '-']) : Expecting (front ++ [c])
  | blank {front : List Char} (h : Expecting front) : Expecting (front ++ [' '])

theorem shuts_operator {front : List Char} {c : Char}
    (h : c ∈ ['(', '*', '/', '%', ','] ∨ c ∈ ['+', '-'] ∧ front.getLast? ≠ some 'E') :
    Shuts front c := by
  rcases h with member | ⟨member, noMark⟩
  · simp only [List.mem_cons, List.not_mem_nil, or_false] at member
    rcases member with rfl | rfl | rfl | rfl | rfl <;>
      exact ⟨by decide, by decide, by decide, fun _ => by decide⟩
  · simp only [List.mem_cons, List.not_mem_nil, or_false] at member
    rcases member with rfl | rfl <;>
      exact ⟨by decide, by decide, by decide, fun last => absurd last noMark⟩

theorem OperandMayStart.of_append {u w : List Char} (h : OperandMayStart (u ++ w)) :
    OperandMayStart w := by
  intro c last
  obtain ⟨front, rfl⟩ := List.getLast?_eq_some_iff.1 last
  rw [← List.append_assoc] at h
  rcases h c List.getLast?_concat with member | ⟨member, noMark⟩
  · exact .inl member
  · refine .inr ⟨member, fun mark => noMark ?_⟩
    rw [List.dropLast_concat] at mark ⊢
    rw [List.getLast?_append, mark]
    rfl

theorem OperandMayStart.isBoundary_getLast? {p : List Char} (h : OperandMayStart p) :
    isBoundary p.getLast? = true := by
  cases last : p.getLast? with
  | none => rfl
  | some c =>
    have allowed := h c last
    simp only [List.mem_cons, List.not_mem_nil, or_false] at allowed
    rcases allowed with (rfl | rfl | rfl | rfl | rfl | rfl) | ⟨rfl | rfl, -⟩ <;> decide

/-- What is replaced in front of an operand ends in an operator or a parenthesis again. -/
theorem OperandMayStart.exists_substitute {p : List Char} (h : OperandMayStart p)
    (answer : Binary64) :
    substitute answer 0 none p = [] ∨
      ∃ front c, substitute answer 0 none p = front ++ [c] ∧
        (c ∈ ['(', '*', '/', '%', ','] ∨ c ∈ ['+', '-'] ∧ front.getLast? ≠ some 'E') := by
  rcases List.eq_nil_or_concat p with rfl | ⟨q, c, rfl⟩
  · exact .inl rfl
  · right
    rw [List.concat_eq_append] at *
    have allowed := h c List.getLast?_concat
    rw [List.dropLast_concat] at allowed
    have other : isNameStart c = false ∧ (c = '^' ∨ c ∉ replacedStarts) := by
      simp only [List.mem_cons, List.not_mem_nil, or_false] at allowed
      rcases allowed with (rfl | rfl | rfl | rfl | rfl | rfl) | ⟨rfl | rfl, -⟩ <;> decide
    have cut : NoWordAcross q [c] := .inr (by simp [isBoundary, other.1])
    rw [substitute_append (Nat.zero_le _) cut]
    by_cases power : c = '^'
    · refine ⟨substitute answer 0 none q ++ ['*'], '*', ?_, .inl (by decide)⟩
      rw [power, substitute_power, List.append_assoc]
      rfl
    · refine ⟨substitute answer 0 none q, c, ?_, ?_⟩
      · rw [substitute_plain (other.2.resolve_left power)]
        rfl
      · rcases allowed with member | ⟨member, noMark⟩
        · left
          simpa [power] using member
        · refine .inr ⟨member, fun mark => noMark ?_⟩
          exact getLast?_of_substitute (by decide) (by decide) mark

theorem OperandMayStart.isNameChar_getLast?_substitute {p : List Char} (h : OperandMayStart p)
    (answer : Binary64) :
    ∀ c, (substitute answer 0 none p).getLast? = some c → isNameChar c = false := by
  rcases h.exists_substitute answer with empty | ⟨front, d, same, allowed⟩
  · intro c last
    rw [empty] at last
    cases last
  · intro c last
    rw [same, List.getLast?_concat] at last
    cases last
    exact (shuts_operator allowed).name

theorem expandOnward_of_length_le {mode : AngleMode} {opened : List Bool} {skip : Nat}
    {before : Option Char} {text : List Char} (h : text.length ≤ skip) :
    expandOnward mode opened skip before text = [] := by
  induction text generalizing skip before with
  | nil => rfl
  | cons c rest ih =>
    cases skip with
    | zero => cases h
    | succ skip => exact ih (Nat.le_of_succ_le_succ h)

/-- Behind an opening parenthesis the opening of a call ends, or the parenthesis stands by itself. -/
theorem expandOnward_opening_ends (mode : AngleMode) (opened : List Bool) {skip : Nat}
    (before : Option Char) {text : List Char} (enough : skip ≤ text.length) :
    (∃ front, expandOnward mode opened skip before (text ++ ['(']) = front ++ ['(']) ∨
      ∃ front, expandOnward mode opened skip before (text ++ ['(']) = front ++ [',', ' '] := by
  induction text generalizing opened skip before with
  | nil =>
    obtain rfl : skip = 0 := Nat.le_zero.1 enough
    rw [List.nil_append, expandOnward_opening]
    exact .inl ⟨[], rfl⟩
  | cons c text ih =>
    have behind : ∀ (first : List Char) (opened : List Bool) {skip : Nat}, skip ≤ text.length →
        (∃ front, first ++ expandOnward mode opened skip (some c) (text ++ ['(']) =
          front ++ ['(']) ∨
        ∃ front, first ++ expandOnward mode opened skip (some c) (text ++ ['(']) =
          front ++ [',', ' '] := by
      intro first opened skip enough
      rcases ih opened (some c) enough with ⟨front, same⟩ | ⟨front, same⟩
      · exact .inl ⟨first ++ front, by rw [same, List.append_assoc]⟩
      · exact .inr ⟨first ++ front, by rw [same, List.append_assoc]⟩
    rw [List.length_cons] at enough
    cases skip with
    | succ skip => exact behind [] opened (Nat.le_of_succ_le_succ enough)
    | zero =>
      rw [List.cons_append, expandOnward]
      cases found : SurfaceFunction.callAt? before (c :: (text ++ ['('])) with
      | some f =>
        simp only
        by_cases inner : f.name.length ≤ text.length
        · exact behind _ _ inner
        · -- the call ends with the parenthesis, so that nothing is left of the text
          have skipped : expandOnward mode (f.isAngular :: opened) f.name.length (some c)
              (text ++ ['(']) = [] := by
            apply expandOnward_of_length_le
            rw [List.length_append, List.length_singleton]
            omega
          rw [skipped, List.append_nil]
          exact f.opening_ends mode
      | none =>
        simp only
        split
        · exact behind [c] _ (Nat.zero_le _)
        · split
          · exact behind (c :: mode.closing (opened.headD false)) _ (Nat.zero_le _)
          · exact behind [c] _ (Nat.zero_le _)

/-- In front of an operand the canonical form expects one. -/
theorem OperandMayStart.expecting {p : List Char} (h : OperandMayStart p) (mode : AngleMode)
    (answer : Binary64) : Expecting (expandOnward mode [] 0 none (substitute answer 0 none p)) := by
  have opening : ∀ front, Expecting (front ++ ['(']) := fun front =>
    .operator (shuts_operator (.inl (by decide))) (by decide)
  have comma : ∀ front, Expecting (front ++ [',', ' ']) := by
    intro front
    have first : Expecting (front ++ [',']) := .operator (shuts_operator (.inl (by decide))) (by decide)
    have spaced := first.blank
    rwa [List.append_assoc] at spaced
  rcases h.exists_substitute answer with empty | ⟨front, c, same, allowed⟩
  · rw [empty]
    exact .nothing
  · rw [same]
    by_cases parenthesis : c = '('
    · rw [parenthesis]
      rcases expandOnward_opening_ends mode [] none (Nat.zero_le front.length) with
        ⟨front, same⟩ | ⟨front, same⟩
      · rw [same]
        exact opening front
      · rw [same]
        exact comma front
    · have other : isNameChar c = false ∧ c ∉ callStarts ∧ c ≠ ')' := by
        simp only [List.mem_cons, List.not_mem_nil, or_false] at allowed
        rcases allowed with (rfl | rfl | rfl | rfl | rfl) | ⟨rfl | rfl, -⟩ <;> decide
      have cut : NoCallAcross front [c] := by
        refine .inr fun d head => ?_
        cases head
        exact ⟨other.1, parenthesis⟩
      have plain : Plain [] (lastOf none front) [c] :=
        ⟨callAt?_eq_none _ (.inl other.2.1), parenthesis, other.2.2, trivial⟩
      rw [expandOnward_append (Nat.zero_le _) cut, ← List.append_nil [c], expandOnward_plain plain]
      refine .operator (shuts_operator ?_) ?_
      · rcases allowed with member | ⟨member, noMark⟩
        · exact .inl member
        · exact .inr ⟨member, fun mark => noMark (getLast?_of_expandOnward mark)⟩
      · simp only [List.mem_cons, List.not_mem_nil, or_false] at allowed ⊢
        rcases allowed with (rfl | rfl | rfl | rfl | rfl) | ⟨rfl | rfl, -⟩ <;> simp

/-! ## Behind the block -/

/-- What ends an operand in a canonical form. -/
def Follows (rest : List Char) : Prop :=
  ∀ c, rest.head? = some c → c ∈ [')', ',', '+', '-', '*', '/', '%']

theorem OperandMayEnd.dropBlankEnd {w : List Char} (h : OperandMayEnd w) :
    OperandMayEnd (dropBlankEnd w) := by
  obtain ⟨blanks, same, -⟩ := exists_append_dropBlankEnd w
  intro c head
  apply h
  rw [same, List.head?_append, head]
  rfl

/-- What follows an operand does not depend on how the operand ends. -/
theorem OperandMayEnd.substitute_eq {w : List Char} (h : OperandMayEnd w) (answer : Binary64) :
    Follows (substitute answer 0 none w) ∧
      ∀ before, substitute answer 0 before w = substitute answer 0 none w := by
  cases w with
  | nil => exact ⟨fun c head => (by cases head), fun _ => rfl⟩
  | cons c w =>
    have member := h c rfl
    by_cases power : c = '^'
    · rw [power]
      refine ⟨fun d head => ?_, fun before => by rw [substitute_power, substitute_power]⟩
      rw [substitute_power] at head
      cases head
      decide
    · have plain : c ∉ replacedStarts := by
        simp only [List.mem_cons, List.not_mem_nil, or_false] at member
        rcases member with rfl | rfl | rfl | rfl | rfl | rfl | rfl | rfl <;>
          first | decide | exact absurd rfl power
      refine ⟨fun d head => ?_, fun before => by rw [substitute_plain plain, substitute_plain plain]⟩
      rw [substitute_plain plain] at head
      cases head
      simpa [power] using member

theorem Follows.expandOnward_eq {w : List Char} (h : Follows w) (mode : AngleMode)
    (opened : List Bool) : Follows (expandOnward mode opened 0 none w) ∧
      ∀ before, expandOnward mode opened 0 before w = expandOnward mode opened 0 none w := by
  cases w with
  | nil => exact ⟨fun c head => (by cases head), fun _ => rfl⟩
  | cons c w =>
    have member := h c rfl
    by_cases closing : c = ')'
    · rw [closing]
      refine ⟨fun d head => ?_, fun before => by rw [expandOnward_closing, expandOnward_closing]⟩
      rw [expandOnward_closing] at head
      cases head
      decide
    · have other : c ∉ callStarts ∧ c ≠ '(' := by
        simp only [List.mem_cons, List.not_mem_nil, or_false] at member
        rcases member with rfl | rfl | rfl | rfl | rfl | rfl | rfl <;> decide
      have kept : ∀ before, expandOnward mode opened 0 before (c :: w) =
          c :: expandOnward mode opened 0 (some c) w := fun before =>
        expandOnward_plain (u := [c])
          ⟨callAt?_eq_none _ (.inl other.1), other.2, closing, trivial⟩
      refine ⟨fun d head => ?_, fun before => by rw [kept, kept]⟩
      rw [kept] at head
      cases head
      exact member

/-- In a canonical form a block has something in front that expects an operand, and something behind
that ends one; both are the same for all blocks. -/
theorem canonical_around {p w : List Char} (front : OperandMayStart p) (behind : OperandMayEnd w)
    (mode : AngleMode) (answer : Binary64) :
    ∃ before after, Expecting before ∧ Follows after ∧ ∀ {text : List Char}, Block text →
      canonical mode answer (p ++ (text ++ w)) = before ++ (text ++ after) := by
  have start : OperandMayStart (p.dropWhile isBlank) := by
    rw [← List.takeWhile_append_dropWhile (p := isBlank) (l := p)] at front
    exact front.of_append
  obtain ⟨follows, replaced⟩ := behind.dropBlankEnd.substitute_eq answer
  have expecting := start.expecting mode answer
  have words : isBoundary (p.dropWhile isBlank).getLast? = true := start.isBoundary_getLast?
  have calls := start.isNameChar_getLast?_substitute answer
  obtain ⟨follows, expanded⟩ := follows.expandOnward_eq mode
    (openBehind [] 0 none (substitute answer 0 none (p.dropWhile isBlank)))
  refine ⟨_, _, expecting, follows, fun block => ?_⟩
  obtain ⟨c, middle, rfl, visible⟩ := block.start
  rw [canonical, trimBlanks_append p visible block.ending, expandCalls_eq_expandOnward,
    substitute_append (Nat.zero_le _) (.inl words), block.substitute, replaced,
    expandOnward_append (Nat.zero_le _) (.inl calls), block.expand, expanded]

end Calculator
