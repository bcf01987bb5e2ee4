import Calculator.Proofs.Session.Coherence
import Calculator.Proofs.Surface.Spelled
import Mathlib.Data.List.SplitBy

/-!
# Products of pressed operands

Operands that are pressed one after another are factors of a product, but names of letters that touch
are one name, which stands for nothing. The pressed text falls into pieces, an operand by itself or
names that run together; each is read by itself, and the first that is no operand is a fault.
-/
namespace Calculator

/-- Names of letters that stand next to each other are one name. -/
def touches (c d : SurfaceConstant) : Bool :=
  c.isWord && d.isWord

/-- The text of operands that are pressed one after another. -/
def operandsText (operands : List SurfaceConstant) : List Char :=
  operands.flatMap SurfaceConstant.name

/-! ## Names that run together -/

/-- The letters of names. -/
def nameLetters : List Char :=
  ['e', 'a', 'n', 's']

theorem SurfaceConstant.mem_nameLetters {c : SurfaceConstant} (word : c.isWord = true) :
    ∀ d ∈ c.name, d ∈ nameLetters := by
  cases c with
  | pi => cases word
  | euler | answer => exact forall_mem_of_all (by decide)

theorem mem_nameLetters_of_words {run : List SurfaceConstant} (words : ∀ c ∈ run, c.isWord = true) :
    ∀ d ∈ operandsText run, d ∈ nameLetters := by
  intro d member
  obtain ⟨c, found, inside⟩ := List.mem_flatMap.1 member
  exact c.mem_nameLetters (words c found) d inside

theorem isNameStart_of_mem_nameLetters : ∀ d ∈ nameLetters, isNameStart d = true :=
  forall_mem_of_all (by decide)

theorem isUnknown_of_nameLetters {name : List Char} (h : ∀ d ∈ name, d ∈ nameLetters) :
    IsUnknown name where
  function := by
    cases found : Primitive.ofName? name with
    | none => rfl
    | some p =>
      obtain rfl := Primitive.name_of_ofName? found
      cases p <;> exact absurd (List.all_eq_true.2 fun d member => decide_eq_true (h d member))
        (by decide)
  constant := by
    unfold nonFinite?
    split
    · rename_i same
      rw [same] at h
      exact absurd (h 'N' (by decide)) (by decide)
    · split
      · rename_i same
        rw [same] at h
        exact absurd (h 'I' (by decide)) (by decide)
      · rfl

theorem name_ne_of_nameLetters {name : List Char} (h : ∀ d ∈ name, d ∈ nameLetters)
    (f : SurfaceFunction) : f.name ≠ name := by
  rintro rfl
  cases f <;> exact absurd (List.all_eq_true.2 fun d member => decide_eq_true (h d member))
    (by decide)

/-- Two names or more that touch are another name. -/
theorem bare_operandsText {run : List SurfaceConstant} (words : ∀ c ∈ run, c.isWord = true)
    (several : 1 < run.length) : Bare (operandsText run) := by
  have letters : ∀ d ∈ operandsText run, isNameStart d = true := fun d member =>
    isNameStart_of_mem_nameLetters d (mem_nameLetters_of_words words d member)
  match run, several with
  | first :: second :: further, _ =>
    have euler : operandsText (first :: second :: further) ≠ ['e'] := by
      cases first <;> cases second <;> simp [operandsText, SurfaceConstant.name, answerName]
    have answer : operandsText (first :: second :: further) ≠ answerName := by
      cases first <;> cases second <;> simp [operandsText, SurfaceConstant.name, answerName]
    cases text : operandsText (first :: second :: further) with
    | nil => cases first <;> cases text
    | cons c w =>
      rw [text] at letters euler answer
      exact bare_of_letters letters euler answer

/-! ## Pieces -/

/-- The lexemes of a piece: one operand, or names that run together. -/
def pieceLexemes (answer : Binary64) : List SurfaceConstant → List Lexeme
  | [operand] => operand.lexemes answer
  | run => [.name (operandsText run)]

/-- What a piece is read as. -/
def pieceValue (answer : Binary64) : List SurfaceConstant → Except Fault Binary64
  | [operand] => .ok (operand.value answer)
  | run => .error (.unknownName (operandsText run))

/-- The product of a number and the pieces behind it, from left to right. -/
def multiplied (answer : Binary64) (left : Binary64) :
    List (List SurfaceConstant) → Except Fault Binary64
  | [] => .ok left
  | piece :: pieces => do
    let right ← pieceValue answer piece
    multiplied answer (left * right) pieces

/-- A text of operands falls into these pieces. -/
structure Pieces (pieces : List (List SurfaceConstant)) : Prop where
  nonempty : ∀ piece ∈ pieces, piece ≠ []
  joined : ∀ piece ∈ pieces, piece.IsChain fun c d => touches c d = true
  apart : pieces.IsChain fun piece further => ∃ h h',
    touches (piece.getLast h) (further.head h') = false

theorem pieces_splitBy (operands : List SurfaceConstant) : Pieces (operands.splitBy touches) where
  nonempty _ member := List.ne_nil_of_mem_splitBy member
  joined _ member := List.isChain_of_mem_splitBy member
  apart := List.isChain_getLast_head_splitBy touches operands

namespace Pieces

variable {piece : List SurfaceConstant} {pieces : List (List SurfaceConstant)}

theorem tail (h : Pieces (piece :: pieces)) : Pieces pieces where
  nonempty further member := h.nonempty further (List.mem_cons_of_mem _ member)
  joined further member := h.joined further (List.mem_cons_of_mem _ member)
  apart := h.apart.tail

/-- Names of letters end before what follows their piece. -/
theorem stopsName (h : Pieces (piece :: pieces)) (word : ∀ h, (piece.getLast h).isWord = true) :
    StopsName (operandsText pieces.flatten) := by
  intro d head
  cases pieces with
  | nil => cases head
  | cons further pieces =>
    obtain ⟨ends, starts, separate⟩ := (List.isChain_cons_cons.1 h.apart).1
    rw [touches, word ends, Bool.true_and] at separate
    obtain ⟨operand, rest, rfl⟩ := List.exists_cons_of_ne_nil starts
    rw [List.head_cons] at separate
    cases operand with
    | pi =>
      cases head
      decide
    | euler | answer => cases separate

/-- Only names of letters run together. -/
theorem words_of_isChain (chain : piece.IsChain fun c d => touches c d = true)
    (several : 1 < piece.length) : ∀ c ∈ piece, c.isWord = true := by
  induction chain with
  | nil => cases several
  | singleton c => exact absurd several (by simp)
  | @cons_cons c d rest first further ih =>
    rw [touches, Bool.and_eq_true] at first
    intro e member
    rcases List.mem_cons.1 member with rfl | member
    · exact first.1
    · cases rest with
      | nil =>
        rw [List.mem_singleton.1 member]
        exact first.2
      | cons _ _ => exact ih (by simp) e member

/-- Names that run together stand for nothing. -/
theorem isUnknown (h : Pieces (piece :: pieces)) (several : 1 < piece.length) :
    IsUnknown (operandsText piece) :=
  isUnknown_of_nameLetters (mem_nameLetters_of_words
    (words_of_isChain (h.joined piece List.mem_cons_self) several))

end Pieces

/-- The pieces of a text become their lexemes, one after the other. -/
theorem Pieces.canonicallySpells {pieces : List (List SurfaceConstant)} (h : Pieces pieces)
    {mode : AngleMode} {answer : Binary64} {opened : List Bool} :
    CanonicallySpells mode answer opened (operandsText pieces.flatten)
      (pieces.flatMap (pieceLexemes answer)) := by
  induction pieces with
  | nil => exact .nil
  | cons piece pieces ih =>
    have further := ih h.tail
    have text : operandsText (piece :: pieces).flatten =
        operandsText piece ++ operandsText pieces.flatten := by
      simp [operandsText]
    rw [text, List.flatMap_cons]
    match piece, h with
    | [], h => exact absurd rfl (h.nonempty [] List.mem_cons_self)
    | [operand], h =>
      have apart : operand.isWord = true →
          isBoundary (operandsText pieces.flatten).head? = true := fun word =>
        ((h.stopsName fun _ => word).apart (some 'a')).resolve_left (by decide)
      have single : operandsText [operand] = operand.name := by simp [operandsText]
      rw [single]
      exact further.constant operand apart
    | first :: second :: rest, h =>
      have words := words_of_isChain (h.joined _ List.mem_cons_self) (by simp)
      have stops := h.stopsName fun h => words _ (List.getLast_mem h)
      exact further.name (bare_operandsText words (by simp)) stops
        (.inl (name_ne_of_nameLetters (mem_nameLetters_of_words words)))

/-! ## Reading -/

section Reading

open Rules

variable {answer : Binary64} {c : Cursor} {piece : List SurfaceConstant}
  {pieces : List (List SurfaceConstant)} {ls : List Lexeme} {levels : Nat}

/-- A piece starts a factor. -/
theorem startsAlone_of_piece (h : c.rest.lexemes = pieceLexemes answer piece ++ ls) :
    c.StartsAlone := by
  match piece, h with
  | [operand], h => exact .opening (Cursor.operator?_of_lexemes h).1
  | [], h | _ :: _ :: _, h => exact .name (Cursor.next?_of_lexemes h).1

theorem head?_pieces_ne_power (pieces : List (List SurfaceConstant)) :
    (pieces.flatMap (pieceLexemes answer)).head? ≠ some (.operator .power) := by
  match pieces with
  | [] => simp
  | [operand] :: _ => simp [pieceLexemes, SurfaceConstant.lexemes, enclosed]
  | [] :: _ | (_ :: _ :: _) :: _ => simp [pieceLexemes]

/-- A piece is read as a factor: an operand has its number, and other names stand for nothing. -/
theorem raised_piece (room : 2 ≤ levels) (nonempty : piece ≠ [])
    (unknown : 1 < piece.length → IsUnknown (operandsText piece))
    (h : c.rest.lexemes = pieceLexemes answer piece ++ ls)
    (noPower : ls.head? ≠ some (.operator .power)) :
    ∃ c', c'.rest.lexemes = ls ∧
      raised .standard (inside .standard nestingLimit levels) c =
        (pieceValue answer piece).map (·, c') := by
  match piece, nonempty, unknown, h with
  | [operand], _, _, h =>
    obtain ⟨t, writes, value, depth⟩ := writes_literal (operand.value answer)
    obtain ⟨c', derived, behind, -⟩ := writes.derives_group h
    have stop : c'.EndsPower := Cursor.operator?_ne_of_lexemes behind noPower
    have read := (Derives.base (.unsigned derived)).reads .standard nestingLimit stop levels
    have shallow : (Syntax.group t).depth ≤ levels := by
      rw [Syntax.depth, depth, literalDepth]
      split <;> omega
    have outcome : (Syntax.group t).evaluate .standard nestingLimit levels =
        .ok (operand.value answer) := (Syntax.evaluate_eq_ok_iff _ _ _ _ _).2 ⟨value, shallow⟩
    refine ⟨c', behind, ?_⟩
    rw [read, outcome]
    rfl
  | first :: second :: rest, _, unknown, h =>
    obtain ⟨next, behind⟩ := Cursor.next?_of_lexemes h
    obtain ⟨noFunction, noConstant⟩ := unknown (by simp)
    have noSign : ∀ sign : Sign, c.operator? ≠ some sign.symbol := by
      intro sign found
      rw [Cursor.operator?_of_next?_name next] at found
      cases found
    have function : Registry.standard.function? (operandsText (first :: second :: rest)) = none := by
      simp [Registry.standard, noFunction]
    have constant : Registry.standard.constant? (operandsText (first :: second :: rest)) = none :=
      noConstant
    refine ⟨c.advance, behind, ?_⟩
    rw [raised, signed_of_no_sign _ _ noSign, primary_of_name _ _ next, named, function]
    simp only [constant]
    rfl

theorem pieceLexemes_ne_nil (answer : Binary64) (piece : List SurfaceConstant) :
    pieceLexemes answer piece ≠ [] := by
  match piece with
  | [operand] => simp [pieceLexemes, SurfaceConstant.lexemes, enclosed]
  | [] | _ :: _ :: _ => simp [pieceLexemes]

/-- Pieces are factors, one after the other. -/
theorem factors_pieces (room : 2 ≤ levels) (h : Pieces pieces)
    (next : c.rest.lexemes = pieces.flatMap (pieceLexemes answer)) {bound : Nat}
    (enough : c.rest.length ≤ bound) (left : Binary64) :
    ∃ c', c'.AtEnd ∧
      factors .standard (inside .standard nestingLimit levels) bound left c =
        (multiplied answer left pieces).map (·, c') := by
  induction pieces generalizing c left bound with
  | nil =>
    have atEnd : c.AtEnd := Cursor.atEnd_of_lexemes next
    have ends := Cursor.endsSum_of_atEnd atEnd
    exact ⟨c, atEnd, factors_of_neither _ _ ends.noOperator ends.noImplicit bound left⟩
  | cons piece pieces ih =>
    rw [List.flatMap_cons] at next
    obtain ⟨c₁, behind, read⟩ := raised_piece room (h.nonempty piece List.mem_cons_self)
      h.isUnknown next (head?_pieces_ne_power pieces)
    have taken := List.length_pos_iff.2 (pieceLexemes_ne_nil answer piece)
    have count := congrArg List.length next
    rw [← behind, List.length_append, Tokens.length_lexemes, Tokens.length_lexemes] at count
    obtain ⟨fewer, rfl⟩ : ∃ fewer, bound = fewer + 1 := ⟨bound - 1, by omega⟩
    rw [factors_of_startsAlone _ _ (startsAlone_of_piece next), read, multiplied]
    cases pieceValue answer piece with
    | error fault =>
      have fits : c₁.rest.length ≤ fewer := by omega
      obtain ⟨c', atEnd, -⟩ := ih h.tail behind fits left
      exact ⟨c', atEnd, rfl⟩
    | ok right => exact ih h.tail behind (by omega) (left * right)

/-- A text of operands is read piece by piece. -/
theorem value_pieces {tokens : Tokens} (h : Pieces (piece :: pieces))
    (next : tokens.lexemes = (piece :: pieces).flatMap (pieceLexemes answer)) :
    tokens.value .standard nestingLimit =
      (pieceValue answer piece >>= fun first => multiplied answer first pieces) := by
  rw [List.flatMap_cons] at next
  have room : 2 ≤ nestingLimit := by decide
  obtain ⟨lexeme, some⟩ := (startsAlone_of_piece (c := tokens.start) next).next?
  obtain ⟨c₁, behind, first⟩ := raised_piece (c := tokens.start) room
    (h.nonempty piece List.mem_cons_self) h.isUnknown next (head?_pieces_ne_power pieces)
  have further := factors_pieces room h.tail behind (Nat.le_refl _)
  cases value : pieceValue answer piece with
  | error fault =>
    obtain ⟨c', atEnd, -⟩ := further .zero
    refine Tokens.value_of_sum some atEnd ?_
    rw [sum, term, first, value]
    rfl
  | ok x =>
    obtain ⟨c', atEnd, read⟩ := further x
    refine Tokens.value_of_sum some atEnd ?_
    rw [sum, term, first, value]
    simp only [map_success, ok_bind, read]
    cases multiplied answer x pieces with
    | error fault => rfl
    | ok y => exact terms_of_no_sign _ _ (Cursor.endsSum_of_atEnd atEnd).noTerm _ y

end Reading

/-! ## Products -/

/-- The product of operands, from left to right. -/
def operandsProduct (answer : Binary64) (first : SurfaceConstant)
    (further : List SurfaceConstant) : Binary64 :=
  further.foldl (fun x operand => x * operand.value answer) (first.value answer)

/-- No two names of letters stand next to each other. -/
def Separate (operands : List SurfaceConstant) : Prop :=
  operands.IsChain fun c d => touches c d = false

instance (operands : List SurfaceConstant) : Decidable (Separate operands) :=
  inferInstanceAs (Decidable (List.IsChain _ _))

namespace Pieces

variable {pieces : List (List SurfaceConstant)}

theorem length_of_separate (h : Pieces pieces) (separate : Separate pieces.flatten) :
    ∀ piece ∈ pieces, piece.length = 1 := by
  intro piece member
  have inside : piece <:+: pieces.flatten := List.infix_of_mem_flatten member
  have apart : Separate piece := List.IsChain.infix separate inside
  match piece, h.nonempty piece member, h.joined piece member, apart with
  | [_], _, _, _ => rfl
  | first :: second :: _, _, joined, apart =>
    have same := (List.isChain_cons_cons.1 joined).1
    rw [(List.isChain_cons_cons.1 apart).1] at same
    cases same

theorem separate_of_length (h : Pieces pieces) (single : ∀ piece ∈ pieces, piece.length = 1) :
    Separate pieces.flatten := by
  induction pieces with
  | nil => exact .nil
  | cons piece pieces ih =>
    have further := ih h.tail fun piece member => single piece (List.mem_cons_of_mem _ member)
    obtain ⟨operand, rfl⟩ := List.length_eq_one_iff.1 (single piece List.mem_cons_self)
    cases pieces with
    | nil => exact .singleton operand
    | cons piece' pieces =>
      obtain ⟨operand', rfl⟩ := List.length_eq_one_iff.1 (single piece' (by simp))
      obtain ⟨_, _, apart⟩ := (List.isChain_cons_cons.1 h.apart).1
      exact List.isChain_cons_cons.2 ⟨apart, further⟩

end Pieces

theorem multiplied_single (answer left : Binary64) {pieces : List (List SurfaceConstant)}
    (single : ∀ piece ∈ pieces, piece.length = 1) :
    multiplied answer left pieces =
      .ok (pieces.flatten.foldl (fun x operand => x * operand.value answer) left) := by
  induction pieces generalizing left with
  | nil => rfl
  | cons piece pieces ih =>
    obtain ⟨operand, rfl⟩ := List.length_eq_one_iff.1 (single piece List.mem_cons_self)
    exact ih (left * operand.value answer) fun piece member =>
      single piece (List.mem_cons_of_mem _ member)

theorem pieceValue_several (answer : Binary64) {piece : List SurfaceConstant}
    (several : piece.length ≠ 1) :
    pieceValue answer piece = .error (.unknownName (operandsText piece)) := by
  match piece with
  | [operand] => exact absurd rfl several
  | [] | _ :: _ :: _ => rfl

/-- The first piece that is no operand is found. -/
theorem multiplied_several (answer left : Binary64) {pieces : List (List SurfaceConstant)}
    (several : ∃ piece ∈ pieces, piece.length ≠ 1) :
    ∃ run ∈ pieces, run.length ≠ 1 ∧
      multiplied answer left pieces = .error (.unknownName (operandsText run)) := by
  induction pieces generalizing left with
  | nil =>
    obtain ⟨piece, member, -⟩ := several
    cases member
  | cons piece pieces ih =>
    by_cases single : piece.length = 1
    · have further := ((List.exists_mem_cons_iff _ _ _).1 several).resolve_left (not_not_intro single)
      obtain ⟨operand, rfl⟩ := List.length_eq_one_iff.1 single
      obtain ⟨run, member, length, fault⟩ := ih (left * operand.value answer) further
      exact ⟨run, List.mem_cons_of_mem _ member, length, fault⟩
    · refine ⟨piece, List.mem_cons_self, single, ?_⟩
      rw [multiplied, pieceValue_several answer single]
      rfl

theorem isBlank_operandsText (operands : List SurfaceConstant) :
    ∀ c ∈ operandsText operands, isBlank c = false := by
  intro c member
  obtain ⟨operand, -, inside⟩ := List.mem_flatMap.1 member
  have visible : ∀ d ∈ operand.name, isBlank d = false := by
    cases operand <;> exact forall_mem_of_all (by decide)
  exact visible c inside

theorem length_operandsText (operands : List SurfaceConstant) :
    (operandsText operands).length ≤ 3 * operands.length := by
  induction operands with
  | nil => exact Nat.zero_le _
  | cons operand operands ih =>
    have name : operand.name.length ≤ 3 := by cases operand <;> decide
    have text : operandsText (operand :: operands) = operand.name ++ operandsText operands := rfl
    rw [text, List.length_append, List.length_cons]
    omega

section Evaluation

variable (first : SurfaceConstant) {further : List SurfaceConstant}

/-- The text of operands is evaluated piece by piece. -/
theorem exists_pieces (few : further.length < 300) (mode : AngleMode) (answer : Binary64) :
    ∃ piece pieces, Pieces (piece :: pieces) ∧ (piece :: pieces).flatten = first :: further ∧
      evaluate (operandsText (first :: further)) mode answer =
        (pieceValue answer piece >>= fun x => multiplied answer x pieces) := by
  have whole := List.flatten_splitBy touches (first :: further)
  have fits := pieces_splitBy (first :: further)
  have short : (operandsText (first :: further)).length ≤ lengthLimit := by
    have length := length_operandsText (first :: further)
    rw [List.length_cons] at length
    unfold lengthLimit
    omega
  have spelled : CanonicallySpells mode answer [] _ _ := fits.canonicallySpells
  rw [whole, ← trimBlanks_eq_self (isBlank_operandsText _)] at spelled
  obtain ⟨tokens, lexemes, value⟩ := spelled.evaluateWith_eq short .standard
  cases split : (first :: further).splitBy touches with
  | nil => exact absurd (List.splitBy_eq_nil.1 split) (List.cons_ne_nil _ _)
  | cons piece pieces =>
    rw [split] at whole fits lexemes
    exact ⟨piece, pieces, fits, whole, value.trans (value_pieces fits lexemes)⟩

theorem evaluate_separate (few : further.length < 300) (separate : Separate (first :: further))
    (mode : AngleMode) (answer : Binary64) :
    evaluate (operandsText (first :: further)) mode answer =
      .ok (operandsProduct answer first further) := by
  obtain ⟨piece, pieces, fits, whole, value⟩ := exists_pieces first few mode answer
  have single := fits.length_of_separate (whole ▸ separate)
  obtain ⟨operand, rfl⟩ := List.length_eq_one_iff.1 (single piece List.mem_cons_self)
  rw [value, pieceValue, ok_bind,
    multiplied_single _ _ fun piece member => single piece (List.mem_cons_of_mem _ member)]
  cases whole
  rfl

theorem evaluate_joined (few : further.length < 300) (joined : ¬ Separate (first :: further))
    (mode : AngleMode) (answer : Binary64) :
    ∃ run, run <:+: first :: further ∧ 1 < run.length ∧ (∀ c ∈ run, c.isWord = true) ∧
      evaluate (operandsText (first :: further)) mode answer =
        .error (.unknownName (operandsText run)) := by
  obtain ⟨piece, pieces, fits, whole, value⟩ := exists_pieces first few mode answer
  have several : ∃ run ∈ piece :: pieces, run.length ≠ 1 := by
    by_contra single
    push Not at single
    have separate := fits.separate_of_length single
    rw [whole] at separate
    exact joined separate
  obtain ⟨run, member, length, fault⟩ : ∃ run ∈ piece :: pieces, run.length ≠ 1 ∧
      evaluate (operandsText (first :: further)) mode answer =
        .error (.unknownName (operandsText run)) := by
    rw [value]
    by_cases single : piece.length = 1
    · have further := ((List.exists_mem_cons_iff _ _ _).1 several).resolve_left (not_not_intro single)
      obtain ⟨operand, rfl⟩ := List.length_eq_one_iff.1 single
      obtain ⟨run, member, length, fault⟩ :=
        multiplied_several answer (operand.value answer) further
      exact ⟨run, List.mem_cons_of_mem _ member, length, fault⟩
    · refine ⟨piece, List.mem_cons_self, single, ?_⟩
      rw [pieceValue_several answer single]
      rfl
  have inside : run <:+: first :: further := by
    rw [← whole]
    exact List.infix_of_mem_flatten member
  have long : 1 < run.length := by
    have nonempty := List.length_pos_iff.2 (fits.nonempty run member)
    omega
  exact ⟨run, inside, long, Pieces.words_of_isChain (fits.joined run member) long, fault⟩

end Evaluation

/-! ## Sessions -/

namespace Session

theorem press_operand (evaluator : Evaluator) (library : FactorialLibrary) (s : Session)
    (operand : SurfaceConstant) :
    (s.press evaluator library operand.name).1 = s.append operand.name := by
  have action : Action.ofToken? operand.name = some (.append operand.name) := by
    cases operand <;> decide
  rw [press_eq_perform evaluator library action, perform]

/-- While an expression is edited, operands are added to it one after the other. -/
theorem run_operands (evaluator : Evaluator) (library : FactorialLibrary)
    (operands : List SurfaceConstant) {s : Session} (editing : s.phase = .editing) :
    s.run evaluator library (operands.map fun operand => .press operand.name) =
      { s with expression := s.expression ++ operandsText operands } := by
  induction operands generalizing s with
  | nil => simp [run, operandsText]
  | cons operand operands ih =>
    have step : (s.press evaluator library operand.name).1 =
        { s with expression := s.expression ++ operand.name } := by
      rw [press_operand, append, if_neg fun h => by rw [editing] at h; cases h.1]
      simp [editing]
    have further := ih (s := { s with expression := s.expression ++ operand.name }) editing
    rw [run] at further
    rw [run, List.map_cons, List.foldl_cons, operate, step, further]
    simp [operandsText]

/-- Operands pressed on a session that has just been started, or emptied while editing: they are
evaluated to their product, from left to right, if no two of the names `e` and `ans` stand next to
each other; and otherwise the evaluation fails at names that run together, which are one unknown
name. -/
theorem evaluate_pressed_operands (library : FactorialLibrary) (s : Session)
    (empty : s.expression = []) (editing : s.phase = .editing) (first : SurfaceConstant) (further : List SurfaceConstant)
    (few : further.length < 300) :
    let pressed := s.run standardEvaluator library
      ((first :: further).map fun operand => .press operand.name)
    let product := operandsProduct s.answer first further
    (Separate (first :: further) → pressed.evaluate standardEvaluator =
      .ok (pressed.finishWith product, some (.ok product))) ∧
    (¬ Separate (first :: further) → ∃ run, run <:+: first :: further ∧ 1 < run.length ∧
      (∀ c ∈ run, c.isWord = true) ∧
      let error := (Fault.unknownName (operandsText run)).toError
      pressed.evaluate standardEvaluator = .ok (pressed.fail error, some (.error error))) := by
  intro pressed product
  have same : pressed = { s with expression := operandsText (first :: further) } := by
    have run := run_operands standardEvaluator library (first :: further) editing
    rwa [empty, List.nil_append] at run
  have visible : ¬ pressed.isBlankExpression = true := by
    rw [same, isBlankExpression, List.all_eq_true]
    intro blank
    obtain ⟨c, rest, text⟩ : ∃ c rest, operandsText (first :: further) = c :: rest := by
      cases first <;> exact ⟨_, _, rfl⟩
    have member : c ∈ operandsText (first :: further) := by
      rw [text]
      exact List.mem_cons_self
    have shown := isBlank_operandsText _ c member
    rw [blank c member] at shown
    cases shown
  have evaluated : standardEvaluator pressed.expression pressed.mode pressed.answer =
      (Calculator.evaluate (operandsText (first :: further)) s.mode s.answer).mapError
        fun fault => .reported fault.toError := by
    rw [same]
    rfl
  constructor
  · intro separate
    rw [evaluate, if_neg visible, evaluated, evaluate_separate first few separate]
    rfl
  · intro joined
    obtain ⟨run, inside, several, words, fault⟩ := evaluate_joined first few joined s.mode s.answer
    refine ⟨run, inside, several, words, ?_⟩
    rw [evaluate, if_neg visible, evaluated, fault]
    rfl

/-- Operands between which `π` stands, on a session whose last answer is 2. -/
theorem evaluate_pressed_answers :
    let s : Session := { start .degrees with answer := .ofNat 2 }
    let operands : List SurfaceConstant := [.answer, .pi, .answer]
    let pressed := s.run standardEvaluator .series (operands.map fun operand => .press operand.name)
    let product := operandsProduct s.answer .answer [.pi, .answer]
    s.expression = [] ∧ s.phase = .editing ∧ Separate operands ∧
      pressed.evaluate standardEvaluator = .ok (pressed.finishWith product, some (.ok product)) := by
  intro s operands pressed product
  have separate : Separate operands := by decide
  have whole := evaluate_pressed_operands .series s rfl rfl .answer [.pi, .answer] (by decide)
  exact ⟨rfl, rfl, separate, whole.1 separate⟩

/-- Two names of letters make no product. -/
theorem evaluate_pressed_euler_twice :
    let pressed := (start .degrees).run standardEvaluator .series [.press ['e'], .press ['e']]
    let error : CalculationError := ⟨.unknownIdentifier, "ee is not defined".toList⟩
    pressed.expression = ['e', 'e'] ∧
      pressed.evaluate standardEvaluator = .ok (pressed.fail error, some (.error error)) := by
  decide +kernel

end Session

end Calculator
