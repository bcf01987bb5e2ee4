import Calculator.Proofs.Surface.Pieces
import Calculator.Proofs.Token.Spelling

/-!
# Words that a text uses

Whether a word stands in an expression by itself can be told before constants and the last answer are
replaced: no word comes about by replacing, and what follows a word stays of the same kind.
-/
namespace Calculator

/-- The word stands in the text, after a boundary and before something that `next` allows. -/
def standsIn (word : List Char) (next : Option Char → Bool) (before : Option Char) :
    List Char → Bool
  | [] => false
  | c :: rest =>
    isBoundary before && word.isPrefixOf (c :: rest) &&
        next ((c :: rest).drop word.length).head? ||
      standsIn word next (some c) rest

/-- A name ends before this character, or before the end of the text. -/
def endsName (next : Option Char) : Bool :=
  !next.any isNameChar

/-- A blank comes next. -/
def isSpaced (next : Option Char) : Bool :=
  next.any isBlank

/-- The text uses the name by itself: names are told apart as they are where constants are replaced,
so a digit may stand before the name, but no letter. -/
def usesName (name text : List Char) : Bool :=
  standsIn name endsName none text

/-- The text has the name with a blank behind it. -/
def hasSpaceAfter (name text : List Char) : Bool :=
  standsIn name isSpaced none text

section

variable {word : List Char} {next : Option Char → Bool}

theorem standsIn_cons {before : Option Char} {c : Char} {rest : List Char} :
    standsIn word next before (c :: rest) = true ↔
      (isBoundary before = true ∧ ∃ behind, c :: rest = word ++ behind ∧ next behind.head? = true) ∨
        standsIn word next (some c) rest = true := by
  rw [standsIn, Bool.or_eq_true, Bool.and_eq_true, Bool.and_eq_true, List.isPrefixOf_iff_prefix]
  constructor
  · rintro (⟨⟨boundary, behind, same⟩, follows⟩ | later)
    · rw [← same, List.drop_left] at follows
      exact .inl ⟨boundary, behind, same.symm, follows⟩
    · exact .inr later
  · rintro (⟨boundary, behind, same, follows⟩ | later)
    · rw [same, List.drop_left]
      exact .inl ⟨⟨boundary, behind, rfl⟩, follows⟩
    · exact .inr later

/-- Which characters follow a word is not changed by trimming and replacing. -/
structure Steady (next : Option Char → Bool) : Prop where
  literal : next (some '(') = true → next (some 'π') = true
  power : next (some '*') = true → next (some '^') = true
  ending : next none = true → ∀ c, isBlank c = true → next (some c) = true

theorem steady_isSpaced : Steady isSpaced where
  literal h := by cases h
  power h := by cases h
  ending h := by cases h

theorem isBoundary_of_isBlank {c : Char} (h : isBlank c = true) : isBoundary (some c) = true := by
  simp [isBoundary, isNameStart_of_isBlank h]

theorem isBoundary_of_isNameStart {c : Char} (h : isNameStart c = true) :
    isBoundary (some c) = false := by
  simp [isBoundary, h]

theorem steady_endsName : Steady endsName where
  literal _ := by decide
  power _ := by decide
  ending _ c blank := by
    rw [endsName, Option.any_some, isNameChar_of_isBlank blank]
    rfl

/-- A word of letters whose first letter may start a call. -/
structure IsWord (word : List Char) : Prop where
  start : ∃ c further, word = c :: further ∧ c ∈ callStarts
  letters : ∀ c ∈ word, isNameStart c = true

/-- A word does not start where none of its letters may. -/
theorem IsWord.standsIn_of_cons (h : IsWord word) {before : Option Char} {c : Char}
    {rest : List Char} (found : standsIn word next before (c :: rest) = true)
    (still : c ∉ callStarts ∨ isBoundary before = false) :
    standsIn word next (some c) rest = true := by
  rcases standsIn_cons.1 found with ⟨boundary, behind, same, -⟩ | later
  · obtain ⟨start, further, rfl, member⟩ := h.start
    cases same
    rcases still with still | still
    · exact absurd member still
    · rw [boundary] at still
      cases still
  · exact later

theorem IsWord.standsIn_of_quiet (h : IsWord word) {before : Option Char} {w rest : List Char}
    (silent : quiet before w = true) {c : Char} (plain : c ∉ callStarts)
    (found : standsIn word next before (w ++ c :: rest) = true) :
    standsIn word next (some c) rest = true := by
  induction w generalizing before with
  | nil => exact h.standsIn_of_cons found (.inl plain)
  | cons d w ih =>
    simp only [quiet, Bool.and_eq_true, Bool.or_eq_true, Bool.not_eq_true',
      List.contains_eq_mem, decide_eq_false_iff_not] at silent
    exact ih silent.2 (h.standsIn_of_cons found silent.1)

theorem IsWord.standsIn_of_literal (h : IsWord word) {before : Option Char} {x : Binary64}
    {rest : List Char} (found : standsIn word next before (enclosedLiteral x ++ rest) = true) :
    standsIn word next (some ')') rest = true := by
  rw [enclosedLiteral_append] at found
  have inside := h.standsIn_of_cons found (.inl (by decide))
  exact h.standsIn_of_quiet (literal_plain x).2 (by decide) inside

section Substitution

variable {answer : Binary64}

/-- Letters behind a letter were there before replacing. -/
theorem word_of_substitute {w : List Char} (letters : ∀ c ∈ w, isNameStart c = true)
    {before : Option Char} (inside : isBoundary before = false) {text behind : List Char}
    (h : substitute answer 0 before text = w ++ behind) :
    ∃ rest before', text = w ++ rest ∧ isBoundary before' = false ∧
      substitute answer 0 before' rest = behind := by
  induction w generalizing before text with
  | nil => exact ⟨text, before, rfl, inside, h⟩
  | cons d w ih =>
    have letter := letters d List.mem_cons_self
    cases text with
    | nil => cases h
    | cons c rest =>
      by_cases pi : c = 'π'
      · rw [pi, substitute_pi, enclosedLiteral_append] at h
        rw [← List.head_eq_of_cons_eq h] at letter
        cases letter
      · by_cases power : c = '^'
        · rw [power, substitute_power] at h
          rw [← List.head_eq_of_cons_eq h] at letter
          cases letter
        · rw [substitute_inside pi power inside, List.cons_append, List.cons.injEq] at h
          obtain ⟨rfl, further⟩ := h
          have inner := isBoundary_of_isNameStart letter
          obtain ⟨rest', before', same, inside', behind'⟩ :=
            ih (fun c member => letters c (List.mem_cons_of_mem _ member)) inner further
          exact ⟨rest', before', by rw [same, List.cons_append], inside', behind'⟩

/-- What follows a word is of the same kind before replacing. -/
theorem Steady.of_substitute (steady : Steady next) {before : Option Char}
    (inside : isBoundary before = false) {rest : List Char}
    (h : next (substitute answer 0 before rest).head? = true) : next rest.head? = true := by
  cases rest with
  | nil => exact h
  | cons c rest =>
    by_cases pi : c = 'π'
    · rw [pi, substitute_pi, enclosedLiteral_append] at h
      rw [pi]
      exact steady.literal h
    · by_cases power : c = '^'
      · rw [power, substitute_power] at h
        rw [power]
        exact steady.power h
      · rw [substitute_inside pi power inside] at h
        exact h

/-- What the first character becomes, and how many characters are replaced with it. -/
inductive Replaces (answer : Binary64) (before : Option Char) (c : Char) (rest : List Char) : Prop
  | literal (x : Binary64) (skip : Nat)
      (same : substitute answer 0 before (c :: rest) =
        enclosedLiteral x ++ substitute answer skip (some c) rest)
      (closed : ∀ d, (rest.drop skip).head? = some d → isNameStart d = true →
        skip = 0 ∧ isBoundary (some c) = true)
  | power (same : c = '^')
  | kept (same : substitute answer 0 before (c :: rest) = c :: substitute answer 0 (some c) rest)

theorem replaces (before : Option Char) (c : Char) (rest : List Char) :
    Replaces answer before c rest := by
  have closed : ∀ {word : List Char}, standsAlone word before (c :: rest) = true →
      ∀ d, ((c :: rest).drop word.length).head? = some d → isNameStart d = false := by
    intro word alone d head
    simp only [standsAlone, Bool.and_eq_true, isBoundary, head] at alone
    simpa using alone.2
  by_cases pi : c = 'π'
  · subst pi
    exact .literal .pi 0 (substitute_pi before rest) fun _ _ _ => ⟨rfl, rfl⟩
  · by_cases power : c = '^'
    · exact .power power
    · cases euler : standsAlone ['e'] before (c :: rest) with
      | true =>
        refine .literal .euler 0 ?_ fun d head letter => ?_
        · rw [substitute, if_neg pi, if_neg power, euler, if_pos rfl]
        · rw [closed euler d head] at letter
          cases letter
      | false =>
        cases last : standsAlone ['a', 'n', 's'] before (c :: rest) with
        | true =>
          refine .literal answer 2 ?_ fun d head letter => ?_
          · rw [substitute, if_neg pi, if_neg power, euler, last]
            rfl
          · rw [closed last d head] at letter
            cases letter
        | false => exact .kept (substitute_cons pi power euler last)

/-- A word that stands in the text after replacing stood there before. -/
theorem IsWord.standsIn_of_substitute (h : IsWord word) (steady : Steady next) {skip : Nat}
    {before before' : Option Char} {text : List Char}
    (agree : ∀ d, (text.drop skip).head? = some d → isNameStart d = true →
      isBoundary before' = true → skip = 0 ∧ isBoundary before = true)
    (found : standsIn word next before' (substitute answer skip before text) = true) :
    standsIn word next before text = true := by
  induction text generalizing skip before before' with
  | nil => cases found
  | cons c rest ih =>
    rw [standsIn_cons]
    cases skip with
    | succ skip =>
      rw [substitute] at found
      refine .inr (ih (fun d head letter boundary => ?_) found)
      cases (agree d head letter boundary).1
    | zero =>
      have step : Replaces answer before c rest := replaces before c rest
      rcases step with ⟨x, skip, same, closed⟩ | power | same
      · rw [same] at found
        exact .inr (ih (fun d head letter _ => closed d head letter) (h.standsIn_of_literal found))
      · rw [power, substitute_power] at found
        have behind := h.standsIn_of_cons (h.standsIn_of_cons found (.inl (by decide)))
          (.inl (by decide))
        rw [power]
        exact .inr (ih (fun _ _ _ _ => ⟨rfl, rfl⟩) behind)
      · rw [same] at found
        rcases standsIn_cons.1 found with ⟨boundary, behind, written, follows⟩ | later
        · left
          obtain ⟨start, further, rfl, -⟩ := h.start
          rw [List.cons_append, List.cons.injEq] at written
          obtain ⟨rfl, written⟩ := written
          have letter := h.letters c List.mem_cons_self
          have inside := isBoundary_of_isNameStart letter
          obtain ⟨rest', before'', rfl, inside', rfl⟩ := word_of_substitute
            (fun d member => h.letters d (List.mem_cons_of_mem _ member)) inside written
          exact ⟨(agree c rfl letter boundary).2, rest', rfl, steady.of_substitute inside' follows⟩
        · exact .inr (ih (fun _ _ _ boundary => ⟨rfl, boundary⟩) later)

end Substitution

/-! ## Trimming -/

/-- A word behind the blanks in front stands in the whole text. -/
theorem standsIn_of_dropWhile {before before' : Option Char} (boundary : isBoundary before = true)
    {text : List Char} (found : standsIn word next before' (text.dropWhile isBlank) = true) :
    standsIn word next before text = true := by
  induction text generalizing before with
  | nil => cases found
  | cons c rest ih =>
    rw [standsIn_cons]
    cases blank : isBlank c with
    | true =>
      rw [List.dropWhile_cons_of_pos blank] at found
      exact .inr (ih (isBoundary_of_isBlank blank) found)
    | false =>
      rw [List.dropWhile_cons_of_neg (by simp [blank]), standsIn_cons] at found
      rcases found with ⟨-, found⟩ | later
      · exact .inl ⟨boundary, found⟩
      · exact .inr later

theorem Steady.of_append_blanks (steady : Steady next) {behind blanks : List Char}
    (all : ∀ c ∈ blanks, isBlank c = true) (h : next behind.head? = true) :
    next (behind ++ blanks).head? = true := by
  cases behind with
  | cons c behind => exact h
  | nil =>
    cases blanks with
    | nil => exact h
    | cons c blanks => exact steady.ending h c (all c List.mem_cons_self)

theorem Steady.standsIn_append_blanks (steady : Steady next) {before : Option Char}
    {text blanks : List Char} (all : ∀ c ∈ blanks, isBlank c = true)
    (found : standsIn word next before text = true) :
    standsIn word next before (text ++ blanks) = true := by
  induction text generalizing before with
  | nil => cases found
  | cons c rest ih =>
    rw [List.cons_append, standsIn_cons]
    rcases standsIn_cons.1 found with ⟨boundary, behind, same, follows⟩ | later
    · refine .inl ⟨boundary, behind ++ blanks, ?_, steady.of_append_blanks all follows⟩
      rw [← List.append_assoc, ← same, List.cons_append]
    · exact .inr (ih later)

/-- What an expression does not use, it does not use after trimming and replacing. -/
theorem IsWord.standsIn_substitute_trimBlanks (h : IsWord word) (steady : Steady next)
    (answer : Binary64) {text : List Char} (unused : standsIn word next none text = false) :
    standsIn word next none (substitute answer 0 none (trimBlanks text)) = false := by
  rw [← Bool.not_eq_true] at *
  intro found
  apply unused
  have trimmed := h.standsIn_of_substitute steady (fun _ _ _ _ => ⟨rfl, rfl⟩) found
  obtain ⟨blanks, same, all⟩ := exists_append_dropBlankEnd (text.dropWhile isBlank)
  have untrimmed := steady.standsIn_append_blanks all trimmed
  rw [trimBlanks, ← same] at untrimmed
  exact standsIn_of_dropWhile rfl untrimmed

end

end Calculator
