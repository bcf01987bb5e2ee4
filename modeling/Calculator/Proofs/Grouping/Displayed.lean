import Calculator.Proofs.Grouping.Blocks
import Calculator.Proofs.Session.Coherence

/-!
# Going on from a displayed value

The text of a result on the display is one operand wherever an operand may stand: a value that is
shown with a sign, with a power of ten or by a name is taken as a whole by what stands to the left and
to the right of it. So parentheses around it change nothing, unless they nest too deep, and a session
goes on from a result, or recalls its memory behind an operator, as if there were parentheses.
-/
namespace Calculator

/-! ## What is read on both sides -/

theorem Follows.stops {rest : List Char} (h : Follows rest) : Numeral.Stops rest ∧ StopsName rest := by
  cases rest with
  | nil => exact ⟨Numeral.stops_nil, fun c head => (by cases head)⟩
  | cons c rest =>
    have member := h c rfl
    have other : digitValue? c = none ∧ c ≠ '.' ∧ c ≠ 'E' ∧ isNameChar c = false := by
      simp only [List.mem_cons, List.not_mem_nil, or_false] at member
      rcases member with rfl | rfl | rfl | rfl | rfl | rfl | rfl <;> decide
    refine ⟨Numeral.stops_cons rest other.1 other.2.1 other.2.2.1, fun d head => ?_⟩
    cases head
    exact other.2.2.2

/-- What ends an operand opens no parenthesis and is no number. -/
theorem Follows.stopsOperand {rest : List Char} (h : Follows rest) {lexemes : List Lexeme}
    (spelled : Spells rest lexemes) : StopsOperand lexemes := by
  obtain ⟨tokens, read, rfl⟩ := spelled 0
  cases rest with
  | nil =>
    cases read
    exact ⟨fun head => (by cases head), fun n head => (by cases head)⟩
  | cons c rest =>
    have member := h c rfl
    have other : digitValue? c = none ∧ c ≠ '.' ∧ isNameStart c = false ∧ isBlank c = false ∧
        c ≠ '(' := by
      simp only [List.mem_cons, List.not_mem_nil, or_false] at member
      rcases member with rfl | rfl | rfl | rfl | rfl | rfl | rfl <;> decide
    obtain ⟨digit, point, start, visible, noOpening⟩ := other
    have scanned : Lexeme.scan? (c :: rest) = (Operator.scan? (c :: rest)).map .operator := by
      simp [Lexeme.scan?, Numeral.scan?_eq_none rest digit point, scanName?, start]
    rw [Tokens.read, visible, scanned] at read
    cases found : Operator.scan? (c :: rest) with
    | none =>
      rw [found] at read
      cases read
    | some o =>
      rw [found] at read
      obtain ⟨further, -, rfl⟩ := map_eq_ok read
      refine ⟨fun head => ?_, fun n head => (by cases head)⟩
      cases head
      obtain ⟨tail, same⟩ := Operator.exists_append_of_scan? found
      exact noOpening (List.head_eq_of_cons_eq same).symm

/-- The last lexeme in front of an operand expects one. -/
theorem opensOperand_of_getLast? {lexeme : Lexeme} {c : Char} (last : lexeme.text.getLast? = some c)
    (member : c ∈ ['(', '*', '/', '%', ',', '+', '-']) {rest : List Char}
    (found : Lexeme.scan? (lexeme.text ++ rest) = some lexeme) : lexeme.opensOperand = true := by
  have other : digitValue? c = none ∧ c ≠ '.' ∧ isNameChar c = false ∧ c ≠ ')' := by
    simp only [List.mem_cons, List.not_mem_nil, or_false] at member
    rcases member with rfl | rfl | rfl | rfl | rfl | rfl | rfl <;> decide
  cases lexeme with
  | number n =>
    rcases n.getLast?_text with ends | ⟨d, ends⟩
    · cases ends.symm.trans last
      exact absurd rfl other.2.1
    · cases ends.symm.trans last
      have value := d.isDigit
      rw [other.1] at value
      cases value
  | name name =>
    obtain ⟨isName, -⟩ := Lexeme.name_of_scan? found
    have char := isName.all c (List.mem_of_getLast? last)
    rw [other.2.2.1] at char
    cases char
  | operator o =>
    cases o with
    | closing =>
      cases last
      exact absurd rfl other.2.2.2
    | _ => rfl

/-- What an operand is expected behind is read by itself, up to a lexeme that expects one. -/
theorem Expecting.leads {front : List Char} (h : Expecting front) :
    (∃ lexemes, (∀ l, lexemes.getLast? = some l → l.opensOperand = true) ∧
      ∀ rest, rest.head? ≠ some '*' → Leads (front ++ rest) lexemes rest) ∨
    ∀ rest, rest.head? ≠ some '*' → Unreadable (front ++ rest) := by
  induction h with
  | nothing => exact .inl ⟨[], fun l last => (by cases last), fun rest _ => .here rest⟩
  | @operator front c shuts member =>
    rcases shuts.readAlone.leads with ⟨lexemes, leads⟩ | refused
    · refine .inl ⟨lexemes, fun l last => ?_, leads⟩
      -- the last character is no blank, so it ends the last lexeme, which must be an operator
      have whole := leads [] (by simp)
      rw [List.append_nil] at whole
      have visible : isBlank c = false := by
        simp only [List.mem_cons, List.not_mem_nil, or_false] at member
        rcases member with rfl | rfl | rfl | rfl | rfl | rfl | rfl <;> decide
      obtain ⟨l', last', ends, rest, found⟩ := whole.exists_last List.getLast?_concat visible
      cases last.symm.trans last'
      exact opensOperand_of_getLast? ends member found
    · exact .inr refused
  | @blank front _ ih =>
    have blank : ∀ rest, Leads (' ' :: rest) [] rest := fun rest => .blank (by decide) (.here rest)
    rcases ih with ⟨lexemes, last, leads⟩ | refused
    · refine .inl ⟨lexemes, last, fun rest _ => ?_⟩
      have spaced := (leads (' ' :: rest) (by simp)).trans (blank rest)
      rw [List.append_nil] at spaced
      rwa [List.append_assoc, List.singleton_append]
    · refine .inr fun rest _ => ?_
      rw [List.append_assoc, List.singleton_append]
      exact refused (' ' :: rest) (by simp)

/-! ## Displayed values -/

/-- The text is a block that is read as an operand. -/
structure OperandText (text : List Char) (lexemes : List Lexeme) (t : Syntax) (x : Binary64) : Prop
    where
  block : Block text
  operand : IsOperand .standard lexemes t x
  head : text.head? ≠ some '*'
  leads {rest : List Char} (follows : Follows rest) : Leads (text ++ rest) lexemes rest

theorem operandText_number (n : Numeral) :
    OperandText n.text [.number n] (.number n) n.value where
  block := by
    have plain := n.forall_mem_text (P := fun c => isBlank c = false ∧ c ∉ replacedStarts ∧
      c ∉ callStarts ∧ (c ≠ '(' ∧ c ≠ ')') ∧ c ≠ '*')
      (fun d => ⟨d.isBlank_char, Digit.char_notMem (forall_mem_of_all (by decide)) d,
        Digit.char_notMem (forall_mem_of_all (by decide)) d,
        ⟨Digit.char_ne (by decide) d, Digit.char_ne (by decide) d⟩, Digit.char_ne (by decide) d⟩)
      (forall_mem_of_all (by decide))
    obtain ⟨c, rest, same⟩ := List.exists_cons_of_ne_nil n.text_ne_nil
    exact .of_quiet ⟨c, rest, same, (plain c (by rw [same]; exact List.mem_cons_self)).1⟩
      (fun c last => (plain c (List.mem_of_getLast? last)).1)
      (still_of_notMem fun c member => (plain c member).2.1)
      (quiet_of_notMem fun c member => (plain c member).2.2.1)
      (fun c member => (plain c member).2.2.2.1)
  operand := {
    derives := fun {c ls} h _ => by
      obtain ⟨next, behind⟩ := Cursor.next?_of_lexemes h
      exact ⟨_, .unsigned (.number next), behind⟩
    value := rfl }
  head head := by
    have noTimes := n.forall_mem_text (P := fun c => c ≠ '*') (Digit.char_ne (by decide))
      (forall_mem_of_all (by decide))
    exact noTimes _ (List.mem_of_mem_head? head) rfl
  leads follows := .number n follows.stops.1

/-- A name of a value that is not finite. -/
theorem operandText_name {name : List Char} (isName : IsName name) {x : Binary64}
    (value : Syntax.nameValue? .standard name = some x) (block : Block name) :
    OperandText name [.name name] (.constant name) x where
  block := block
  operand := {
    derives := fun {c ls} h alone => by
      obtain ⟨next, behind⟩ := Cursor.next?_of_lexemes h
      exact ⟨_, .unsigned (.constant next (Cursor.operator?_ne_of_lexemes behind alone)), behind⟩
    value := value }
  head head := by
    obtain ⟨c, start, letter⟩ := isName.start
    cases start.symm.trans head
    cases letter
  leads follows := .name isName follows.stops.2

/-- A minus sign before an operand. -/
theorem OperandText.negative {text : List Char} {lexemes : List Lexeme} {t : Syntax} {x : Binary64}
    (h : OperandText text lexemes t x) :
    OperandText ('-' :: text) (.operator .minus :: lexemes) (.signed .negative t) x.neg where
  block := h.block.negative
  operand := {
    derives := fun {c ls} next alone => by
      obtain ⟨symbol, behind⟩ := Cursor.operator?_of_lexemes next
      obtain ⟨c', derived, behind⟩ := h.operand.derives behind alone
      exact ⟨c', .signed symbol derived, behind⟩
    value := by rw [Syntax.value?, h.operand.value]; rfl }
  head head := by cases head
  leads follows :=
    (Leads.operator .minus (by intro times; cases times)).trans (h.leads follows)

theorem OperandText.signed {text : List Char} {lexemes : List Lexeme} {t : Syntax} {x : Binary64}
    (h : OperandText text lexemes t x) (s : Sign) :
    ∃ lexemes t x, OperandText (NumberFormat.signed s text) lexemes t x := by
  cases s with
  | positive => exact ⟨_, _, _, h⟩
  | negative => exact ⟨_, _, _, h.negative⟩

/-- Whatever value is displayed, its text is one operand. -/
theorem operandText_displayText (x : Binary64) :
    ∃ lexemes t value, OperandText (displayText x) lexemes t value := by
  cases x with
  | nan =>
    have block : Block "NaN".toList := .of_quiet ⟨_, _, rfl, by decide⟩
      (fun c last => (by cases last; decide)) (fun _ => rfl) (fun _ => rfl)
      (forall_mem_of_all (by decide))
    exact ⟨_, _, _, operandText_name ⟨⟨'N', rfl, by decide⟩, forall_mem_of_all (by decide)⟩ rfl block⟩
  | infinite s =>
    have block : Block "Infinity".toList := .of_quiet ⟨_, _, rfl, by decide⟩
      (fun c last => (by cases last; decide)) (fun _ => rfl) (fun _ => rfl)
      (forall_mem_of_all (by decide))
    have name := operandText_name ⟨⟨'I', rfl, by decide⟩, forall_mem_of_all (by decide)⟩ rfl block
    exact name.signed s
  | finite s m =>
    obtain ⟨n, written, -⟩ := NumberFormat.exists_numeral .display rfl
      (NumberFormat.display.digitsOf m)
    have number := operandText_number n
    rw [written] at number
    simp only [displayText, NumberFormat.text]
    split
    · exact ⟨_, _, _, number⟩
    · exact number.signed s

/-! ## Parentheses around a displayed value -/

/-- An operand is read alike with and without parentheses, where an operand is expected. -/
theorem OperandText.readRegrouped {text : List Char} {lexemes : List Lexeme} {t : Syntax}
    {x : Binary64} (h : OperandText text lexemes t x) {before after : List Char}
    (expecting : Expecting before) (follows : Follows after) :
    ReadRegrouped .standard (before ++ (parenthesized text ++ after)) (before ++ (text ++ after)) := by
  have written : parenthesized text ++ after = '(' :: (text ++ ')' :: after) := by
    simp [parenthesized]
  have head : (text ++ after).head? ≠ some '*' := by
    obtain ⟨c, rest, same, -⟩ := h.block.start
    have first := h.head
    rw [same] at first ⊢
    exact first
  have inside : Follows (')' :: after) := fun c head => by
    cases head
    decide
  have grouped : Leads ('(' :: (text ++ ')' :: after)) (enclosed lexemes) after :=
    leads_opening.trans ((h.leads inside).trans leads_closing)
  rw [written]
  rcases expecting.leads with ⟨ls, last, leads⟩ | refused
  · have left := (leads _ (by simp)).trans grouped
    have right := (leads _ head).trans (h.leads follows)
    rcases spells_or_unreadable after with ⟨further, spelled⟩ | refused
    · refine .read (left.spells spelled) (right.spells spelled) ?_
      rw [List.append_assoc, List.append_assoc]
      exact (Regrouped.grouped h.operand (follows.stopsOperand spelled) (.refl false further)).append
        ls last fun _ => rfl
    · exact .refused (left.unreadable refused) (right.unreadable refused)
  · exact .refused (refused _ (by simp)) (refused _ head)

/-- Two outcomes are the same value or errors of one kind, unless the other one is that the expression
is too large. -/
def SameUnlessTooLarge (outcome other : Except Fault Binary64) : Prop :=
  (∀ fault, other = .error fault → fault.kind ≠ .tooLarge) →
    outcome.mapError Fault.kind = other.mapError Fault.kind

/-- A value of the other one is the value of both. -/
theorem SameUnlessTooLarge.value {outcome other : Except Fault Binary64} {x : Binary64}
    (h : SameUnlessTooLarge outcome other) (found : other = .ok x) : outcome = .ok x := by
  have same := h fun fault failed => by
    rw [found] at failed
    cases failed
  rw [found] at same
  cases outcome with
  | ok y =>
    cases same
    rfl
  | error fault => cases same

/-- An operand has the same outcome with and without parentheses, wherever an operand may stand,
unless the text with the parentheses is too large. -/
theorem OperandText.same_parenthesized {text : List Char} {lexemes : List Lexeme} {t : Syntax}
    {x : Binary64} (h : OperandText text lexemes t x) {p w : List Char} (front : OperandMayStart p)
    (behind : OperandMayEnd w) (mode : AngleMode) (answer : Binary64) :
    SameUnlessTooLarge (evaluate (p ++ (text ++ w)) mode answer)
      (evaluate (p ++ (parenthesized text ++ w)) mode answer) := by
  intro small
  obtain ⟨before, after, expecting, follows, around⟩ := canonical_around front behind mode answer
  have grouped : ¬ lengthLimit < (p ++ (parenthesized text ++ w)).length := by
    intro long
    rw [evaluate, evaluateWith, canonicalize, if_pos long] at small
    exact small _ rfl rfl
  have plain : ¬ lengthLimit < (p ++ (text ++ w)).length := by
    simp only [parenthesized, List.length_append, List.length_cons] at grouped ⊢
    omega
  have left : evaluate (p ++ (parenthesized text ++ w)) mode answer =
      evaluateCanonicalWith .standard (before ++ (parenthesized text ++ after)) := by
    rw [evaluate, evaluateWith, canonicalize, if_neg grouped, ok_bind, around h.block.parenthesized]
  have right : evaluate (p ++ (text ++ w)) mode answer =
      evaluateCanonicalWith .standard (before ++ (text ++ after)) := by
    rw [evaluate, evaluateWith, canonicalize, if_neg plain, ok_bind, around h.block]
  rw [left] at small ⊢
  rw [right]
  exact ((h.readRegrouped expecting follows).matches.kind_eq small).symm

/-- A displayed value has the same outcome with and without parentheses around it, wherever an operand
may stand. -/
theorem same_parenthesized_displayText (x : Binary64) {p w : List Char} (front : OperandMayStart p)
    (behind : OperandMayEnd w) (mode : AngleMode) (answer : Binary64) :
    SameUnlessTooLarge (evaluate (p ++ (displayText x ++ w)) mode answer)
      (evaluate (p ++ (parenthesized (displayText x) ++ w)) mode answer) := by
  obtain ⟨lexemes, t, value, operand⟩ := operandText_displayText x
  exact operand.same_parenthesized front behind mode answer

/-! ## Sessions -/

namespace Session

/-- The operators of the keypad. -/
def operatorKeys : List Char := ['+', '-', '*', '/', '%', '^']

/-- The key that recalls the memory. -/
def recallKey : List Char := "MR".toList

variable (evaluator : Evaluator) (library : FactorialLibrary) (s : Session)

theorem press_recallKey : (s.press evaluator library recallKey).1 = s.memoryRecall := by
  have action : Action.ofToken? recallKey = some .memoryRecall := by decide
  rw [press_eq_perform evaluator library action]
  rfl

variable {operator : Char} (key : operator ∈ operatorKeys)

include key

/-- The key of an operator goes on from what there is, even after a result. -/
theorem press_operator :
    (s.press evaluator library [operator]).1 =
      { s with expression := s.expression ++ [operator], phase := .editing } := by
  have action : ∀ c ∈ operatorKeys,
      Action.ofToken? [c] = some (.append [c]) ∧ startsAnew [c] = false :=
    forall_mem_of_all (by decide)
  simp [press, action operator key, perform, append]

/-- An operand may end before an operator. -/
theorem operandMayEnd_operator (more : List Char) : OperandMayEnd (operator :: more) := by
  intro c head
  cases head
  have ends : ∀ c ∈ operatorKeys, c ∈ [')', ',', '+', '-', '*', '/', '%', '^'] :=
    forall_mem_of_all (by decide)
  exact ends operator key

/-- An operand may start behind an operator, unless it is the sign of an exponent. -/
theorem operandMayStart_operator {front : List Char}
    (noMark : operator ∈ ['+', '-'] → front.getLast? ≠ some 'E') :
    OperandMayStart (front ++ [operator]) := by
  intro c last
  rw [List.getLast?_concat] at last
  cases last
  rw [List.dropLast_concat]
  have starts : ∀ c ∈ operatorKeys, c ∈ ['(', '*', '/', '%', '^', ','] ∨ c ∈ ['+', '-'] :=
    forall_mem_of_all (by decide)
  exact (starts operator key).imp_right fun sign => ⟨sign, noMark sign⟩

/-- An operator pressed after a result, and whatever is added behind it, act on the whole displayed
value. -/
theorem evaluate_operator_after_result (value : Binary64) (more : List Char) :
    let continued := ((s.finishWith value).press evaluator library [operator]).1.append more
    SameUnlessTooLarge
      (Calculator.evaluate continued.expression continued.mode continued.answer)
      (Calculator.evaluate (parenthesized (displayText value) ++ operator :: more) s.mode value) := by
  have start : OperandMayStart [] := fun c last => by cases last
  have same := same_parenthesized_displayText value start (operandMayEnd_operator key more) s.mode
    value
  simpa [press_operator evaluator library _ key, append, finishWith] using same

/-- The memory recalled behind an operator is taken as a whole, whatever is added where an operand
may end. -/
theorem evaluate_recall_after_operator
    (noMark : operator ∈ ['+', '-'] → s.expression.getLast? ≠ some 'E') {more : List Char}
    (behind : OperandMayEnd more) :
    let recalled := ((s.press evaluator library [operator]).1.press evaluator library recallKey).1
    let continued := recalled.append more
    SameUnlessTooLarge
      (Calculator.evaluate continued.expression continued.mode continued.answer)
      (Calculator.evaluate (s.expression ++ operator :: (parenthesized (displayText s.memory) ++ more))
        s.mode s.answer) := by
  have same := same_parenthesized_displayText s.memory (operandMayStart_operator key noMark) behind
    s.mode s.answer
  simpa [press_recallKey, press_operator evaluator library _ key, memoryRecall, append] using same

end Session

/-- Wherever an operand may stand, a displayed value has the same outcome with and without
parentheses around it, in every angle mode and with every last answer, unless the text with the
parentheses is too large. So an operator that is pressed after a result, and a memory that is recalled
after an operator, act on the whole displayed value. -/
theorem evaluate_parenthesized_displayText :
    (∀ (x : Binary64) (p w : List Char), OperandMayStart p → OperandMayEnd w → ∀ mode answer,
      SameUnlessTooLarge (evaluate (p ++ (displayText x ++ w)) mode answer)
        (evaluate (p ++ (parenthesized (displayText x) ++ w)) mode answer)) ∧
    (∀ evaluator library (s : Session) value, ∀ operator ∈ Session.operatorKeys, ∀ more,
      let continued := ((s.finishWith value).press evaluator library [operator]).1.append more
      SameUnlessTooLarge (evaluate continued.expression continued.mode continued.answer)
        (evaluate (parenthesized (displayText value) ++ operator :: more) s.mode value)) ∧
    ∀ evaluator library (s : Session), ∀ operator ∈ Session.operatorKeys,
      (operator ∈ ['+', '-'] → s.expression.getLast? ≠ some 'E') → ∀ more, OperandMayEnd more →
      let recalled :=
        ((s.press evaluator library [operator]).1.press evaluator library Session.recallKey).1
      let continued := recalled.append more
      SameUnlessTooLarge (evaluate continued.expression continued.mode continued.answer)
        (evaluate (s.expression ++ operator :: (parenthesized (displayText s.memory) ++ more)) s.mode
          s.answer) := by
  refine ⟨?_, ?_, ?_⟩
  · intro x p w front behind
    exact same_parenthesized_displayText x front behind
  · intro evaluator library s value operator key more
    exact s.evaluate_operator_after_result evaluator library key value more
  · intro evaluator library s operator key noMark more behind
    exact s.evaluate_recall_after_operator evaluator library key noMark behind

/-- A result that is shown with a sign and a power of ten is raised as a whole, as it stands, by the
key of the operator and from the memory. -/
theorem evaluate_parenthesized_displayText_raised :
    let value := Binary64.ofDecimal .negative ⟨1, 15⟩
    let square := Binary64.ofDecimal .positive ⟨1, 30⟩
    let doubled := Binary64.ofDecimal .positive ⟨2, 30⟩
    let s := { Session.start .degrees with memory := value }
    let raised := ((s.finishWith value).press standardEvaluator .series ['^']).1.append ['2']
    let pressed := ((s.append ['2']).press standardEvaluator .series ['*']).1
    let recalled := (pressed.press standardEvaluator .series Session.recallKey).1.append ['^', '2']
    displayText value = "-1E+15".toList ∧
      evaluate ("2*".toList ++ (displayText value ++ "^2".toList)) .degrees .zero = .ok doubled ∧
      evaluate raised.expression raised.mode raised.answer = .ok square ∧
      evaluate recalled.expression recalled.mode recalled.answer = .ok doubled := by
  intro value square doubled s raised pressed recalled
  have start : OperandMayStart "2*".toList := fun c last => by
    cases last
    decide
  have ends : OperandMayEnd "^2".toList := fun c head => by
    cases head
    decide
  obtain ⟨around, operator, memory⟩ := evaluate_parenthesized_displayText
  refine ⟨by decide +kernel, ?_, ?_, ?_⟩
  · exact (around value _ _ start ends .degrees .zero).value (ok_of_toOption (by decide +kernel))
  · exact (operator standardEvaluator .series s value '^' (by decide) ['2']).value
      (ok_of_toOption (by decide +kernel))
  · exact (memory standardEvaluator .series (s.append ['2']) '*' (by decide) (by decide) ['^', '2']
      ends).value (ok_of_toOption (by decide +kernel))

end Calculator
