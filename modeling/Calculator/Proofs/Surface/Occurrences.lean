import Calculator.Proofs.Grouping.Spacing
import Calculator.Proofs.Surface.Names
import Calculator.Proofs.Surface.Spelled

/-!
# Where names are replaced

The canonical form comes about by rewriting a text from left to right: most characters stay, and words
and the openings of calls are replaced behind boundaries. So no word is replaced behind a letter. But
behind a digit one is, even where the digit belongs to a name that goes on with the word.
-/
namespace Calculator

/-- A text behind a character and from a position on is rewritten to a text, with names replaced at
these positions. -/
inductive Rewriting (mode : AngleMode) (answer : Binary64) :
    Option Char → Nat → List Char → List Char → List Nat → Prop
  | ending {before : Option Char} {position : Nat} : Rewriting mode answer before position [] [] []
  | kept {before : Option Char} {position : Nat} (c : Char) {rest out : List Char}
      {places : List Nat} (further : Rewriting mode answer (some c) (position + 1) rest out places) :
      Rewriting mode answer before position (c :: rest) (c :: out) places
  | pi {before : Option Char} {position : Nat} {rest out : List Char} {places : List Nat}
      (further : Rewriting mode answer (some 'π') (position + 1) rest out places) :
      Rewriting mode answer before position ('π' :: rest) (enclosedLiteral .pi ++ out) places
  | power {before : Option Char} {position : Nat} {rest out : List Char} {places : List Nat}
      (further : Rewriting mode answer (some '^') (position + 1) rest out places) :
      Rewriting mode answer before position ('^' :: rest) ('*' :: '*' :: out) places
  | euler {before : Option Char} {position : Nat} {rest out : List Char} {places : List Nat}
      (boundary : isBoundary before = true) (ends : isBoundary rest.head? = true)
      (further : Rewriting mode answer (some 'e') (position + 1) rest out places) :
      Rewriting mode answer before position ('e' :: rest) (enclosedLiteral .euler ++ out)
        (position :: places)
  | answer {before : Option Char} {position : Nat} {rest out : List Char} {places : List Nat}
      (boundary : isBoundary before = true) (ends : isBoundary rest.head? = true)
      (further : Rewriting mode answer (some 's') (position + 3) rest out places) :
      Rewriting mode answer before position (answerName ++ rest) (enclosedLiteral answer ++ out)
        (position :: places)
  | call {before : Option Char} {position : Nat} (f : SurfaceFunction) {rest out : List Char}
      {places : List Nat} (boundary : isBoundary before = true)
      (further : Rewriting mode answer (lastOf before f.name) (position + f.name.length) rest
        ('(' :: out) places) :
      Rewriting mode answer before position (f.name ++ rest)
        (f.opening mode ++ insertAfterClosing (f.closing mode) out) (position :: places)

section Passes

variable {mode : AngleMode} {answer : Binary64}

/-- Characters that nothing is replaced by were there before replacing. -/
theorem exists_of_substitute {w : List Char} (others : ∀ c ∈ w, c ≠ '(' ∧ c ≠ '*')
    {before : Option Char} {text behind : List Char}
    (h : substitute answer 0 before text = w ++ behind) :
    ∃ rest, text = w ++ rest ∧ substitute answer 0 (lastOf before w) rest = behind := by
  induction w generalizing before text with
  | nil => exact ⟨text, rfl, h⟩
  | cons d w ih =>
    obtain ⟨opening, times⟩ := others d List.mem_cons_self
    cases text with
    | nil => cases h
    | cons c rest =>
      have step : Replaces answer before c rest := replaces before c rest
      rcases step with ⟨x, skip, same, -⟩ | power | same
      · rw [same, enclosedLiteral_append] at h
        exact absurd (List.head_eq_of_cons_eq h).symm opening
      · rw [power, substitute_power] at h
        exact absurd (List.head_eq_of_cons_eq h).symm times
      · rw [same, List.cons_append, List.cons.injEq] at h
        obtain ⟨rfl, further⟩ := h
        obtain ⟨rest', written, behind'⟩ :=
          ih (fun e member => others e (List.mem_cons_of_mem _ member)) further
        exact ⟨rest', by rw [written, List.cons_append], behind'⟩

/-- A call that the second pass finds was written as a call, or in front of something that the first
one has put in parentheses. -/
theorem exists_of_called {before before' : Option Char} {text : List Char} {f : SurfaceFunction}
    (call : SurfaceFunction.callAt? before' (substitute answer 0 before text) = some f) :
    isBoundary before' = true ∧ ∃ rest behind, text = f.name ++ rest ∧
      substitute answer 0 before text = f.name ++ '(' :: behind ∧
      substitute answer 0 (lastOf before f.name) rest = '(' :: behind := by
  obtain ⟨boundary, behind, same⟩ := callAt?_eq_some call
  have names : ∀ c ∈ f.name, c ≠ '(' ∧ c ≠ '*' := by
    intro c member
    have name := f.isNameChar_name c member
    constructor <;> rintro rfl <;> cases name
  obtain ⟨rest, written, opened⟩ := exists_of_substitute names same
  exact ⟨boundary, rest, behind, written, same, opened⟩

/-! ## The second pass -/

theorem expandCalls_enclosedLiteral (x : Binary64) (before : Option Char) (rest : List Char) :
    expandCalls mode 0 before (enclosedLiteral x ++ rest) =
      enclosedLiteral x ++ expandCalls mode 0 (some ')') rest := by
  have last : lastOf before (enclosedLiteral x) = some ')' := by
    rw [enclosedLiteral, lastOf_append]
    rfl
  rw [expandCalls_eq_expandOnward, expandCalls_eq_expandOnward, (block_enclosedLiteral x).expand,
    last]

theorem expandCalls_kept {before : Option Char} {c : Char} {rest : List Char}
    (h : SurfaceFunction.callAt? before (c :: rest) = none) :
    expandCalls mode 0 before (c :: rest) = c :: expandCalls mode 0 (some c) rest := by
  rw [expandCalls, h]

theorem expandCalls_call (f : SurfaceFunction) {before : Option Char}
    (boundary : isBoundary before = true) (rest : List Char) :
    expandCalls mode 0 before (f.name ++ '(' :: rest) =
      f.opening mode ++ insertAfterClosing (f.closing mode) (expandCalls mode 0 (some '(') rest) := by
  have outermost := expandOnward_outermost mode f.isAngular [] 0 (some '(') rest
  rw [expandCalls_eq_expandOnward, expandCalls_eq_expandOnward, expandOnward_call f boundary,
    insertAfterClosing_eq, f.closing_eq_isAngular]
  exact congrArg (f.opening mode ++ ·) outermost

/-! ## Both passes -/

variable (mode answer) in
/-- What both passes make of a text. The second one sees another character in front than the first one
where something was replaced. -/
def rewritten (before before' : Option Char) (text : List Char) : List Char :=
  expandCalls mode 0 before' (substitute answer 0 before text)

section Steps

variable {before before' : Option Char} {position : Nat} {rest : List Char} {places : List Nat}

theorem rewriting_pi (further : Rewriting mode answer (some 'π') (position + 1) rest
      (rewritten mode answer (some 'π') (some ')') rest) places) :
    Rewriting mode answer before position ('π' :: rest)
      (rewritten mode answer before before' ('π' :: rest)) places := by
  rw [rewritten, substitute_pi, expandCalls_enclosedLiteral]
  exact .pi further

theorem rewriting_power (further : Rewriting mode answer (some '^') (position + 1) rest
      (rewritten mode answer (some '^') (some '*') rest) places) :
    Rewriting mode answer before position ('^' :: rest)
      (rewritten mode answer before before' ('^' :: rest)) places := by
  have star : ∀ {before rest}, SurfaceFunction.callAt? before ('*' :: rest) = none :=
    callAt?_eq_none _ (.inl (by decide))
  rw [rewritten, substitute_power, expandCalls_kept star, expandCalls_kept star]
  exact .power further

theorem rewriting_euler (alone : standsAlone ['e'] before ('e' :: rest) = true)
    (further : Rewriting mode answer (some 'e') (position + 1) rest
      (rewritten mode answer (some 'e') (some ')') rest) places) :
    Rewriting mode answer before position ('e' :: rest)
      (rewritten mode answer before before' ('e' :: rest)) (position :: places) := by
  obtain ⟨boundary, behind, same, ends⟩ := standsAlone_iff.1 alone
  cases same
  rw [rewritten, substitute, if_neg (by decide), if_neg (by decide), if_pos alone,
    expandCalls_enclosedLiteral]
  exact .euler boundary ends further

theorem rewriting_answer (alone : standsAlone answerName before (answerName ++ rest) = true)
    (further : Rewriting mode answer (some 's') (position + 3) rest
      (rewritten mode answer (some 's') (some ')') rest) places) :
    Rewriting mode answer before position (answerName ++ rest)
      (rewritten mode answer before before' (answerName ++ rest)) (position :: places) := by
  obtain ⟨boundary, behind, same, ends⟩ := standsAlone_iff.1 alone
  cases List.append_cancel_left same
  rw [rewritten, substitute_boundary ends] at further
  rw [rewritten, substitute_answerName boundary ends, expandCalls_enclosedLiteral]
  exact .answer boundary ends further

theorem rewriting_kept {c : Char}
    (kept : substitute answer 0 before (c :: rest) = c :: substitute answer 0 (some c) rest)
    (call : SurfaceFunction.callAt? before' (substitute answer 0 before (c :: rest)) = none)
    (further : Rewriting mode answer (some c) (position + 1) rest
      (rewritten mode answer (some c) (some c) rest) places) :
    Rewriting mode answer before position (c :: rest)
      (rewritten mode answer before before' (c :: rest)) places := by
  rw [kept] at call
  rw [rewritten, kept, expandCalls_kept call]
  exact .kept c further

theorem rewriting_call {f : SurfaceFunction} {inside : List Char} (boundary : isBoundary before = true)
    (boundary' : isBoundary before' = true)
    (call : substitute answer 0 before (f.name ++ rest) = f.name ++ '(' :: inside)
    (opened : substitute answer 0 (lastOf before f.name) rest = '(' :: inside)
    (further : Rewriting mode answer (lastOf before f.name) (position + f.name.length) rest
      (rewritten mode answer (lastOf before f.name) (lastOf before f.name) rest) places) :
    Rewriting mode answer before position (f.name ++ rest)
      (rewritten mode answer before before' (f.name ++ rest)) (position :: places) := by
  rw [rewritten, opened, expandCalls_kept (callAt?_eq_none _ (.inl (by decide)))] at further
  rw [rewritten, call, expandCalls_call f boundary']
  exact .call f boundary further

end Steps

/-- The second pass sees a boundary in front of a letter only where the first one does. -/
def Agree (before before' : Option Char) (text : List Char) : Prop :=
  ∀ c, text.head? = some c → isNameStart c = true → isBoundary before' = true →
    isBoundary before = true

theorem agree_self (before : Option Char) (text : List Char) : Agree before before text :=
  fun _ _ _ boundary => boundary

theorem agree_of_isBoundary {before before' : Option Char} {text : List Char}
    (h : isBoundary before = true ∨ isBoundary text.head? = true) : Agree before before' text := by
  intro c head letter _
  rcases h with boundary | ends
  · exact boundary
  · rw [head, isBoundary_of_isNameStart letter] at ends
    cases ends

theorem length_lt_of_append {text word rest : List Char} (same : text = word ++ rest)
    (nonempty : word ≠ []) : rest.length < text.length := by
  rw [same, List.length_append]
  exact Nat.lt_add_of_pos_left (List.length_pos_iff.2 nonempty)

/-- Both passes together rewrite a text from left to right. -/
theorem exists_rewriting (before before' : Option Char) (position : Nat) (text : List Char)
    (agree : Agree before before' text) :
    ∃ places, Rewriting mode answer before position text (rewritten mode answer before before' text)
      places := by
  match text, agree with
  | [], _ => exact ⟨[], .ending⟩
  | c :: rest, agree =>
    by_cases pi : c = 'π'
    · obtain ⟨places, further⟩ := exists_rewriting (some 'π') (some ')') (position + 1) rest
        (agree_of_isBoundary (.inl (by decide)))
      exact ⟨places, pi ▸ rewriting_pi further⟩
    by_cases power : c = '^'
    · obtain ⟨places, further⟩ := exists_rewriting (some '^') (some '*') (position + 1) rest
        (agree_of_isBoundary (.inl (by decide)))
      exact ⟨places, power ▸ rewriting_power further⟩
    cases euler : standsAlone ['e'] before (c :: rest) with
    | true =>
      obtain ⟨boundary, behind, same, ends⟩ := standsAlone_iff.1 euler
      have shorter := length_lt_of_append same (by decide)
      obtain ⟨places, further⟩ := exists_rewriting (some 'e') (some ')') (position + 1) behind
        (agree_of_isBoundary (.inr ends))
      rw [same] at euler ⊢
      exact ⟨_, rewriting_euler euler further⟩
    | false =>
      cases last : standsAlone answerName before (c :: rest) with
      | true =>
        obtain ⟨boundary, behind, same, ends⟩ := standsAlone_iff.1 last
        have shorter := length_lt_of_append same (by decide)
        obtain ⟨places, further⟩ := exists_rewriting (some 's') (some ')') (position + 3) behind
          (agree_of_isBoundary (.inr ends))
        rw [same] at last ⊢
        exact ⟨_, rewriting_answer last further⟩
      | false =>
        cases call : SurfaceFunction.callAt? before' (substitute answer 0 before (c :: rest)) with
        | none =>
          obtain ⟨places, further⟩ := exists_rewriting (some c) (some c) (position + 1) rest
            (agree_self _ _)
          exact ⟨places, rewriting_kept (substitute_cons pi power euler last) call further⟩
        | some f =>
          obtain ⟨boundary', behind, inside, written, same, opened⟩ := exists_of_called call
          obtain ⟨start, tail, name, member⟩ := f.name_start
          have shorter := length_lt_of_append written (by rw [name]; exact List.cons_ne_nil _ _)
          have letter : isNameStart start = true :=
            forall_mem_of_all (P := fun d => isNameStart d = true) (by decide) start member
          have boundary := agree start (by rw [written, name]; rfl) letter boundary'
          obtain ⟨places, further⟩ := exists_rewriting (lastOf before f.name)
            (lastOf before f.name) (position + f.name.length) behind (agree_self _ _)
          rw [written] at same ⊢
          exact ⟨_, rewriting_call boundary boundary' same opened further⟩
termination_by text.length
decreasing_by
  all_goals
    simp only [List.length_cons] at *
    omega

end Passes

/-! ## Places -/

/-- A word that a name may start with. -/
def StartsWithLetter (word : List Char) : Prop :=
  ∃ c tail, word = c :: tail ∧ isNameStart c = true ∧ c ≠ 'E'

theorem startsWithLetter_answerName : StartsWithLetter answerName :=
  ⟨'a', ['n', 's'], rfl, by decide, by decide⟩

theorem SurfaceFunction.startsWithLetter_name (f : SurfaceFunction) : StartsWithLetter f.name := by
  cases f <;> exact ⟨_, _, rfl, by decide, by decide⟩

/-- A place in a text that starts a name or goes on with one behind a digit. -/
def NamePlace (text : List Char) (position : Nat) : Prop :=
  StartsName text position ∨ ContinuesName text position

section Places

variable {before : Option Char} {front : List Char}

theorem namePlace_word (agree : isBoundary before = true → isBoundary (lastOf none front) = true)
    {word : List Char} (letter : StartsWithLetter word) (boundary : isBoundary before = true)
    (rest : List Char) : NamePlace (front ++ (word ++ rest)) front.length := by
  obtain ⟨c, tail, rfl, start, noMark⟩ := letter
  have ends := agree boundary
  rw [lastOf_eq, Option.or_none] at ends
  exact startsName_or_continuesName start noMark ends

/-- What is found in the rest, with a word in front of it, is found in the whole text. -/
theorem namePlace_onward {word rest behind : List Char} {places : List Nat} {position : Nat}
    (nonempty : word ≠ []) (length : front.length = position)
    (further : ∀ {front : List Char}, (isBoundary (lastOf none word) = true →
        isBoundary (lastOf none front) = true) → front.length = position + word.length →
      ∀ p ∈ places, NamePlace (front ++ (rest ++ behind)) p) :
    ∀ p ∈ places, NamePlace (front ++ (word ++ rest ++ behind)) p := by
  obtain ⟨c, tail, rfl⟩ := List.exists_cons_of_ne_nil nonempty
  have last : lastOf none (front ++ c :: tail) = lastOf none (c :: tail) := by
    rw [lastOf_append]
    rfl
  have inner := further (fun boundary => by rwa [last]) (by rw [List.length_append, length])
  simpa only [List.append_assoc] using inner

/-- However the part of a text behind its front is rewritten, names are replaced only at places where
the text has one, or behind a digit inside one. -/
theorem Rewriting.namePlace {mode : AngleMode} {answer : Binary64} {position : Nat}
    {text out : List Char} {places : List Nat} (h : Rewriting mode answer before position text out places)
    (agree : isBoundary before = true → isBoundary (lastOf none front) = true)
    (length : front.length = position) (behind : List Char) :
    ∀ p ∈ places, NamePlace (front ++ (text ++ behind)) p := by
  induction h generalizing front with
  | ending => exact fun p member => absurd member List.not_mem_nil
  | kept c further ih => exact namePlace_onward (List.cons_ne_nil c []) length ih
  | pi further ih => exact namePlace_onward (List.cons_ne_nil 'π' []) length ih
  | power further ih => exact namePlace_onward (List.cons_ne_nil '^' []) length ih
  | @euler before position rest out places boundary ends further ih =>
    have first :=
      namePlace_word agree ⟨'e', [], rfl, by decide, by decide⟩ boundary (rest ++ behind)
    rw [length] at first
    exact List.forall_mem_cons.2 ⟨first, namePlace_onward (List.cons_ne_nil 'e' []) length ih⟩
  | @answer before position rest out places boundary ends further ih =>
    have first := namePlace_word agree startsWithLetter_answerName boundary (rest ++ behind)
    rw [length, ← List.append_assoc answerName] at first
    exact List.forall_mem_cons.2 ⟨first, namePlace_onward (by decide) length ih⟩
  | @call before position f rest out places boundary further ih =>
    have first := namePlace_word agree f.startsWithLetter_name boundary (rest ++ behind)
    rw [length, ← List.append_assoc f.name] at first
    obtain ⟨c, tail, name, -⟩ := f.startsWithLetter_name
    have nonempty : f.name ≠ [] := by
      rw [name]
      exact List.cons_ne_nil c tail
    have last : ∀ before, lastOf before f.name = lastOf none f.name := by
      intro before
      rw [name]
      rfl
    rw [last] at ih
    exact List.forall_mem_cons.2 ⟨first, namePlace_onward nonempty length ih⟩

end Places

/-- In every text names are replaced behind boundaries from left to right, and however that is done,
each one that is replaced stands at a place where the text has a name, or inside a name directly
behind a digit of it. -/
theorem canonical_replaces (mode : AngleMode) (answer : Binary64) (text : List Char) :
    let blanks := text.takeWhile isBlank
    (∃ places, Rewriting mode answer none blanks.length (trimBlanks text)
      (canonical mode answer text) places) ∧
    ∀ out places, Rewriting mode answer none blanks.length (trimBlanks text) out places →
      ∀ p ∈ places, StartsName text p ∨ ContinuesName text p := by
  intro blanks
  refine ⟨exists_rewriting none none _ _ (agree_self _ _), fun out places h => ?_⟩
  obtain ⟨lead, trail, whole, rfl, blank⟩ := exists_append_trimBlanks text
  have boundary : isBoundary (lastOf none (blanks ++ [])) = true :=
    isBoundary_lastOf_blanks (fun c member => blank c (List.mem_append_left _ member)) rfl
  rw [List.append_nil] at boundary
  have found := h.namePlace (fun _ => boundary) rfl trail
  rwa [← whole] at found

/-- The whole text is one name, but its last letter is replaced, at which no name starts. -/
theorem canonical_replaces_inside :
    let text := "log10e".toList
    names text = [(0, text)] ∧ ¬ StartsName text 5 ∧ text.drop 5 = ['e'] ∧
      canonical .radians .zero text = text.take 5 ++ enclosedLiteral .euler := by
  intro text
  have only : names text = [(0, text)] := by decide +kernel
  refine ⟨only, ?_, by decide, by decide +kernel⟩
  rintro ⟨word, member⟩
  rw [only, List.mem_singleton] at member
  cases member

end Calculator
