import Calculator.Proofs.Grammar.Uncalled
import Calculator.Proofs.Grouping.Spacing
import Calculator.Proofs.Surface.Spelled
import Mathlib.Data.List.Induction

/-!
# Parentheses that nobody wrote

Every parenthesis that opens in the canonical form of a text without one encloses the literal of a
constant. So a function is called there only if its name stands in front of a constant, and without
such a name the outcome does not depend on what the functions are.
-/
namespace Calculator

/-- A constant stands between these, and is no part of a longer name. -/
def SurfaceConstant.StandsBetween (k : SurfaceConstant) (before next : Option Char) : Prop :=
  k.isWord = true → isBoundary before = true ∧ isBoundary next = true

/-- In the text the name stands in front of a constant, with these blanks between them. -/
def AtConstant (name blanks text : List Char) : Prop :=
  ∃ (front : List Char) (k : SurfaceConstant) (behind : List Char),
    text = front ++ (name ++ (blanks ++ (k.name ++ behind))) ∧
      isBoundary (lastOf none front) = true ∧ (∀ c ∈ blanks, isBlank c = true) ∧
      k.StandsBetween (lastOf none (front ++ (name ++ blanks))) behind.head?

/-! ## Parentheses of constants -/

section Substitution

variable {answer : Binary64}

/-- A character becomes something without an opening parenthesis, unless it starts a constant. -/
theorem opening_or_constant (answer : Binary64) (before : Option Char) {c : Char} (other : c ≠ '(')
    (rest : List Char) :
    ∃ (first : List Char) (skip : Nat), skip ≤ rest.length ∧ '(' ∉ first ∧
      (substitute answer 0 before (c :: rest) = first ++ substitute answer skip (some c) rest ∨
        substitute answer 0 before (c :: rest) =
          '(' :: (first ++ substitute answer skip (some c) rest) ∧
        ∃ (k : SurfaceConstant) (behind : List Char), c :: rest = k.name ++ behind ∧
          k.StandsBetween before behind.head?) := by
  have literal : ∀ x, '(' ∉ NumberFormat.literal.text x ++ [')'] := by
    intro x member
    rcases List.mem_append.1 member with inside | last
    · exact ((literal_plain x).1 _ inside).1 rfl
    · cases List.mem_singleton.1 last
  by_cases pi : c = 'π'
  · subst pi
    refine ⟨_, 0, Nat.zero_le _, literal .pi, .inr ⟨?_, .pi, rest, rfl, fun word => by cases word⟩⟩
    rw [substitute_pi]
    rfl
  by_cases power : c = '^'
  · subst power
    exact ⟨['*', '*'], 0, Nat.zero_le _, by decide, .inl (substitute_power before rest)⟩
  cases euler : standsAlone ['e'] before (c :: rest) with
  | true =>
    obtain ⟨boundary, behind, same, ends⟩ := standsAlone_iff.1 euler
    refine ⟨_, 0, Nat.zero_le _, literal .euler,
      .inr ⟨?_, .euler, behind, same, fun _ => ⟨boundary, ends⟩⟩⟩
    rw [substitute, if_neg pi, if_neg power, if_pos euler]
    rfl
  | false =>
    cases last : standsAlone ['a', 'n', 's'] before (c :: rest) with
    | true =>
      obtain ⟨boundary, behind, same, ends⟩ := standsAlone_iff.1 last
      have long : 2 ≤ rest.length := by
        have length := congrArg List.length same
        simp only [List.length_cons, List.length_append, List.length_nil] at length
        omega
      refine ⟨_, 2, long, literal answer,
        .inr ⟨?_, .answer, behind, same, fun _ => ⟨boundary, ends⟩⟩⟩
      rw [substitute, if_neg pi, if_neg power, euler, last]
      rfl
    | false =>
      refine ⟨[c], 0, Nat.zero_le _, ?_, .inl (substitute_cons pi power euler last)⟩
      exact fun member => other (List.mem_singleton.1 member).symm

/-- What stands in front of a parenthesis has more in front than a text without one. -/
theorem exists_append_of_opening {first w front behind : List Char} (plain : '(' ∉ first)
    (h : first ++ w = front ++ '(' :: behind) :
    ∃ further, front = first ++ further ∧ w = further ++ '(' :: behind := by
  rcases List.append_eq_append_iff.1 h with ⟨y, same, rest⟩ | ⟨y, same, rest⟩
  · exact ⟨y, same, rest⟩
  · cases y with
    | nil =>
      rw [List.append_nil] at same
      exact ⟨[], by rw [same, List.append_nil], rest.symm⟩
    | cons d y =>
      have member : '(' ∈ first := by
        rw [same, List.head_eq_of_cons_eq rest]
        simp
      exact absurd member plain

/-- A parenthesis that was not in the text before is that of a constant. -/
theorem exists_constant_of_opening {text : List Char} (unwritten : '(' ∉ text) {skip : Nat}
    (enough : skip ≤ text.length) {before : Option Char} {front behind : List Char}
    (h : substitute answer skip before text = front ++ '(' :: behind) :
    ∃ (u : List Char) (k : SurfaceConstant) (rest : List Char), text = u ++ (k.name ++ rest) ∧
      skip ≤ u.length ∧ k.StandsBetween (lastOf before u) rest.head? ∧
      substitute answer skip before text =
        front ++ substitute answer 0 (lastOf before u) (k.name ++ rest) := by
  induction text generalizing skip before front with
  | nil => simp [substitute] at h
  | cons c text ih =>
    have further : '(' ∉ text := fun member => unwritten (List.mem_cons_of_mem _ member)
    rw [List.length_cons] at enough
    cases skip with
    | succ skip =>
      obtain ⟨u, k, rest, rfl, long, alone, same⟩ := ih further (Nat.le_of_succ_le_succ enough) h
      exact ⟨c :: u, k, rest, rfl, Nat.succ_le_succ long, alone, same⟩
    | zero =>
      have other : c ≠ '(' := fun same => unwritten (same ▸ List.mem_cons_self)
      obtain ⟨first, skip, room, plain, same | ⟨same, k, rest, constant, alone⟩⟩ :=
        opening_or_constant answer before other text
      · rw [same] at h
        obtain ⟨front, rfl, inner⟩ := exists_append_of_opening plain h
        obtain ⟨u, k, rest, rfl, -, alone, behind⟩ := ih further room inner
        refine ⟨c :: u, k, rest, rfl, Nat.zero_le _, alone, ?_⟩
        rw [same, behind, List.append_assoc]
        rfl
      · cases front with
        | nil => exact ⟨[], k, rest, constant, Nat.le_refl _, alone, by rw [constant]; rfl⟩
        | cons d front =>
          rw [same, List.cons_append, List.cons.injEq] at h
          obtain ⟨rfl, h⟩ := h
          obtain ⟨front, rfl, inner⟩ := exists_append_of_opening plain h
          obtain ⟨u, k, rest, rfl, -, alone, behind⟩ := ih further room inner
          refine ⟨c :: u, k, rest, rfl, Nat.zero_le _, alone, ?_⟩
          rw [same, behind, List.cons_append, List.append_assoc]
          rfl

/-- Blanks at the end are kept. -/
theorem exists_append_of_blanks {blanks : List Char} (blank : ∀ c ∈ blanks, isBlank c = true)
    {text front : List Char} (h : substitute answer 0 none text = front ++ blanks) :
    ∃ u, text = u ++ blanks ∧ substitute answer 0 none u = front := by
  induction blanks using List.reverseRecOn generalizing text front with
  | nil => exact ⟨text, (List.append_nil _).symm, by rw [h, List.append_nil]⟩
  | append_singleton blanks b ih =>
    have last : isBlank b = true := blank b (by simp)
    have ends : text.getLast? = some b := by
      have whole : (substitute answer 0 none text).getLast? = some b := by
        rw [h, ← List.append_assoc, List.getLast?_concat]
      refine getLast?_of_substitute ?_ ?_ whole <;> rintro rfl <;> cases last
    obtain ⟨u, rfl⟩ := List.getLast?_eq_some_iff.1 ends
    have cut : NoWordAcross u [b] := .inr (isBoundary_of_isBlank last)
    have plain := notMem_of_isBlank last
    simp only [List.mem_cons, List.mem_append, not_or] at plain
    rw [substitute_append (Nat.zero_le _) cut, substitute_plain plain.2.2.1,
      ← List.append_assoc] at h
    have inner := List.append_inj_left' h rfl
    obtain ⟨u, rfl, same⟩ := ih (fun c member => blank c (List.mem_append_left _ member)) inner
    exact ⟨u, List.append_assoc _ _ _, same⟩

/-- A name in front of a parenthesis that was not in the text stands in front of a constant. -/
theorem atConstant_of_opening {text : List Char} (unwritten : '(' ∉ text)
    {name blanks front behind : List Char} (isName : IsName name)
    (blank : ∀ c ∈ blanks, isBlank c = true) (boundary : isBoundary (lastOf none front) = true)
    (h : substitute answer 0 none text = front ++ (name ++ (blanks ++ '(' :: behind))) :
    AtConstant name blanks text := by
  have whole : substitute answer 0 none text = front ++ name ++ blanks ++ '(' :: behind := by
    rw [h, List.append_assoc, List.append_assoc]
  obtain ⟨u, k, rest, rfl, -, alone, same⟩ :=
    exists_constant_of_opening unwritten (Nat.zero_le _) whole
  have cut : NoWordAcross u (k.name ++ rest) := by
    cases k with
    | pi => exact .inr rfl
    | euler | answer =>
      have ends := (alone rfl).1
      rw [lastOf_eq] at ends
      cases last : u.getLast? with
      | none => exact .inl (by rw [last]; rfl)
      | some d =>
        rw [last] at ends
        exact .inl (by rw [last]; exact ends)
  rw [substitute_append (Nat.zero_le _) cut] at same
  obtain ⟨u, rfl, names⟩ := exists_append_of_blanks blank (List.append_cancel_right same)
  have ends : EndsIn name none (substitute answer 0 none u) := ⟨front, names, boundary⟩
  obtain ⟨front, rfl, boundary⟩ :=
    ends.of_substitute isName.all isName.start fun _ _ _ _ => ⟨rfl, rfl⟩
  refine ⟨front, k, rest, ?_, boundary, blank, ?_⟩
  · simp only [List.append_assoc]
  · rwa [List.append_assoc] at alone

end Substitution

/-! ## Calls -/

/-- Where no surface function is called, nothing is expanded. -/
theorem expandOnward_eq_self {mode : AngleMode} {opened : List Bool}
    (flat : ∀ angular ∈ opened, angular = false) {before : Option Char} {text : List Char}
    (silent : ∀ (f : SurfaceFunction) front behind, text = front ++ (f.name ++ '(' :: behind) →
      isBoundary (lastOf before front) = false) :
    expandOnward mode opened 0 before text = text := by
  induction text generalizing opened before with
  | nil => rfl
  | cons c rest ih =>
    have further : ∀ {opened : List Bool}, (∀ angular ∈ opened, angular = false) →
        expandOnward mode opened 0 (some c) rest = rest := fun flat =>
      ih flat fun f front behind same => silent f (c :: front) behind (congrArg (c :: ·) same)
    have noCall : SurfaceFunction.callAt? before (c :: rest) = none := by
      cases found : SurfaceFunction.callAt? before (c :: rest) with
      | none => rfl
      | some f =>
        obtain ⟨boundary, behind, same⟩ := callAt?_eq_some found
        have inside := silent f [] behind same
        rw [lastOf, boundary] at inside
        cases inside
    have head : opened.headD false = false := by
      cases opened with
      | nil => rfl
      | cons angular opened => exact flat angular List.mem_cons_self
    rw [expandOnward, noCall]
    dsimp only
    split
    · rw [further]
      intro angular member
      rcases List.mem_cons.1 member with rfl | member
      · rfl
      · exact flat angular member
    · split
      · rw [head, AngleMode.closing_false, List.nil_append, further]
        exact fun angular member => flat angular (List.mem_of_mem_tail member)
      · rw [further flat]

/-! ## Lexemes -/

/-- An opening parenthesis that is read first stands behind blanks only. -/
theorem Leads.exists_opening {text rest : List Char} {lexemes : List Lexeme}
    (h : Leads text (.operator .opening :: lexemes) rest) :
    ∃ blanks behind, text = blanks ++ '(' :: behind ∧ ∀ c ∈ blanks, isBlank c = true := by
  generalize same : Lexeme.operator .opening :: lexemes = read at h
  induction h with
  | here => cases same
  | @blank c text rest lexemes blank further ih =>
    obtain ⟨blanks, behind, rfl, all⟩ := ih same
    exact ⟨c :: blanks, behind, rfl, List.forall_mem_cons.2 ⟨blank, all⟩⟩
  | @lexeme lexeme text rest lexemes found further ih =>
    cases same
    exact ⟨[], text, rfl, by simp⟩

/-- A lexeme that a name follows directly ends in a boundary. -/
theorem Lexeme.isBoundary_lastOf_text {lexeme : Lexeme} {text : List Char}
    (found : Lexeme.scan? (lexeme.text ++ text) = some lexeme) {c : Char}
    (head : text.head? = some c) (letter : isNameStart c = true) :
    isBoundary (lastOf none lexeme.text) = true := by
  cases lexeme with
  | number n => exact isBoundary_lastOf_numeral n none
  | operator o => cases o <;> decide
  | name w =>
    obtain ⟨-, rest, same, stops⟩ := Lexeme.name_of_scan? found
    rw [← List.append_cancel_left same] at stops
    have stop := stops c head
    rw [isNameChar, letter] at stop
    cases stop

/-- A name that is read in front of a parenthesis stands in front of it, behind a boundary. -/
theorem Leads.exists_called {text rest : List Char} {lexemes front behind : List Lexeme}
    {name : List Char} (h : Leads text lexemes rest)
    (split : lexemes = front ++ .name name :: .operator .opening :: behind) :
    IsName name ∧ ∃ before blanks after, text = before ++ (name ++ (blanks ++ '(' :: after)) ∧
      isBoundary (lastOf none before) = true ∧ ∀ c ∈ blanks, isBlank c = true := by
  induction h generalizing front with
  | here => simp at split
  | @blank c text rest lexemes blank further ih =>
    obtain ⟨isName, before, blanks, after, rfl, boundary, all⟩ := ih split
    refine ⟨isName, c :: before, blanks, after, rfl, ?_, all⟩
    cases before with
    | nil => exact isBoundary_of_isBlank blank
    | cons d before => exact boundary
  | @lexeme lexeme text rest lexemes found further ih =>
    cases front with
    | nil =>
      cases split
      obtain ⟨blanks, after, rfl, all⟩ := further.exists_opening
      exact ⟨(Lexeme.name_of_scan? found).1, [], blanks, after, rfl, rfl, all⟩
    | cons first front =>
      obtain ⟨isName, before, blanks, after, rfl, boundary, all⟩ := ih (List.cons.inj split).2
      refine ⟨isName, lexeme.text ++ before, blanks, after, by rw [List.append_assoc], ?_, all⟩
      cases before with
      | cons d before => rwa [lastOf_append]
      | nil =>
        obtain ⟨c, head, letter⟩ := isName.start
        rw [List.append_nil]
        refine Lexeme.isBoundary_lastOf_text found ?_ letter
        rw [List.nil_append, List.head?_append, head]
        rfl

/-! ## Outcomes -/

/-- A name at a constant stands there in the text with its blanks at the ends, too. -/
theorem AtConstant.of_trimBlanks {name blanks text : List Char}
    (h : AtConstant name blanks (trimBlanks text)) : AtConstant name blanks text := by
  obtain ⟨front, k, behind, same, boundary, blank, alone⟩ := h
  obtain ⟨lead, trail, whole, -, blanks⟩ := exists_append_trimBlanks text
  have leading : ∀ c ∈ lead, isBlank c = true := fun c member =>
    blanks c (List.mem_append_left _ member)
  refine ⟨lead ++ front, k, behind ++ trail, ?_, isBoundary_lastOf_blanks leading boundary, blank,
    fun word => ?_⟩
  · rw [same] at whole
    simpa only [List.append_assoc] using whole
  · obtain ⟨before, after⟩ := alone word
    refine ⟨by rw [List.append_assoc]; exact isBoundary_lastOf_blanks leading before, ?_⟩
    cases behind with
    | cons c behind => exact after
    | nil =>
      cases trail with
      | nil => rfl
      | cons c trail => exact isBoundary_of_isBlank (blanks c (by simp))

theorem mem_of_mem_trimBlanks {c : Char} {text : List Char} (h : c ∈ trimBlanks text) :
    c ∈ text := by
  obtain ⟨lead, trail, whole, -⟩ := exists_append_trimBlanks text
  rw [whole]
  exact List.mem_append_right _ (List.mem_append_left _ h)

/-- No name of a function stands in front of a constant. What the first pass calls stands right in
front of it. -/
structure NoFunctionAtConstant (registry : Registry) (text : List Char) : Prop where
  registered {name blanks : List Char} (h : AtConstant name blanks text) :
    registry.function? name = none
  surface (f : SurfaceFunction) : ¬ AtConstant f.name [] text

section Evaluation

variable {registry registry' : Registry} {text : List Char} (unwritten : '(' ∉ text)
  (apart : NoFunctionAtConstant registry text) (mode : AngleMode) (answer : Binary64)

include unwritten apart

/-- Such a text has nothing to expand. -/
theorem canonical_eq_substitute :
    canonical mode answer text = substitute answer 0 none (trimBlanks text) := by
  rw [canonical, expandCalls_eq_expandOnward]
  refine expandOnward_eq_self (fun _ member => by cases member) fun f front behind same => ?_
  have isName : IsName f.name := by
    cases f <;> exact ⟨⟨_, rfl, by decide⟩, forall_mem_of_all (by decide)⟩
  by_contra boundary
  rw [Bool.not_eq_false] at boundary
  have noBlank : ∀ c ∈ ([] : List Char), isBlank c = true := fun _ member => by cases member
  have trimmed : '(' ∉ trimBlanks text := fun member => unwritten (mem_of_mem_trimBlanks member)
  have found := atConstant_of_opening trimmed isName noBlank boundary same
  exact apart.surface f found.of_trimBlanks

/-- No function is called in the tokens of its canonical form. -/
theorem uncalled_of_unwritten {tokens : Tokens}
    (read : Tokens.ofText (canonical mode answer text) = .ok tokens) :
    Uncalled registry tokens.lexemes := by
  intro front name behind split
  rw [canonical_eq_substitute unwritten apart] at read
  obtain ⟨isName, before, blanks, after, same, boundary, blank⟩ :=
    (Tokens.leads_of_ofText read).exists_called split
  have trimmed : '(' ∉ trimBlanks text := fun member => unwritten (mem_of_mem_trimBlanks member)
  have found := atConstant_of_opening trimmed isName blank boundary same
  exact apart.registered found.of_trimBlanks

/-- A text without an opening parenthesis, in which no name of a function stands in front of a
constant, has the same outcome over any two registries of the same names and constants: no function
is applied. -/
theorem evaluateWith_eq_of_unwritten (names : SameNames registry registry') :
    evaluateWith registry text mode answer = evaluateWith registry' text mode answer := by
  rw [evaluateWith, evaluateWith, canonicalize]
  by_cases long : lengthLimit < text.length
  · rw [if_pos long, error_bind, error_bind]
  · rw [if_neg long, ok_bind, ok_bind, evaluateCanonicalWith, evaluateCanonicalWith]
    cases read : Tokens.ofText (canonical mode answer text) with
    | error fault => rw [error_bind, error_bind]
    | ok tokens =>
      have uncalled := uncalled_of_unwritten unwritten apart mode answer read
      exact Tokens.value_eq_of_uncalled names uncalled nestingLimit

end Evaluation

theorem sameNames_ofDegrees : SameNames .standard .ofDegrees where
  function name := by simp [Registry.standard, Registry.ofDegrees]
  constant _ := rfl

/-- The name of a function behind a constant is no value, whatever the function. -/
theorem evaluateWith_sine_behind_pi :
    let text := "π+sin".toList
    '(' ∉ text ∧ NoFunctionAtConstant .standard text ∧ SameNames .standard .ofDegrees ∧
      ∀ mode answer, evaluateWith .standard text mode answer =
        evaluateWith .ofDegrees text mode answer := by
  intro text
  have unwritten : '(' ∉ text := by decide
  -- the only constant is the first character
  have first : ∀ {name blanks : List Char}, AtConstant name blanks text → name = [] := by
    rintro name blanks ⟨front, k, behind, same, -⟩
    have inside : ∀ c ∈ k.name, c ∈ text := fun c member => by
      rw [same]
      simp [member]
    cases k with
    | euler => exact absurd (inside 'e' (by decide)) (by decide)
    | answer => exact absurd (inside 'a' (by decide)) (by decide)
    | pi =>
      cases before : front ++ (name ++ blanks) with
      | nil => exact (List.append_eq_nil_iff.1 (List.append_eq_nil_iff.1 before).2).1
      | cons c w =>
        have whole : text = front ++ (name ++ blanks) ++ 'π' :: behind := by
          rw [same]
          simp [SurfaceConstant.name]
        rw [before] at whole
        have later : 'π' ∈ text.tail := by
          rw [whole]
          simp
        exact absurd later (by decide)
  have apart : NoFunctionAtConstant .standard text :=
    { registered := fun found => by rw [first found]; rfl
      surface := fun f found => by
        have none := first found
        cases f <;> cases none }
  exact ⟨unwritten, apart, sameNames_ofDegrees, fun mode answer =>
    evaluateWith_eq_of_unwritten unwritten apart mode answer sameNames_ofDegrees⟩

/-- In front of a constant a function is applied without a parenthesis in the text. -/
theorem evaluateWith_sine_at_pi :
    let text := "sinπ".toList
    '(' ∉ text ∧ SameNames .standard .ofDegrees ∧
      (evaluateWith .standard text .radians .zero).isOk = true ∧
      evaluateWith .standard text .radians .zero ≠ evaluateWith .ofDegrees text .radians .zero := by
  refine ⟨by decide, sameNames_ofDegrees, ?_⟩
  decide +kernel

end Calculator
