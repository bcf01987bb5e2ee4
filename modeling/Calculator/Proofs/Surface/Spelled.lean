import Calculator.Proofs.Degrees.Canonical
import Calculator.Proofs.Grouping.LastAnswer

/-!
# The lexemes of a canonical form, token by token

What the user writes is a sequence of tokens, of which each becomes lexemes of the canonical form by
itself: a constant becomes its literal in parentheses, the opening of a call those of the primitives
it stands for, and a closing parenthesis closes what its opening has opened in addition. A token
must not go on in what follows it.
-/
namespace Calculator

/-! ## Constants -/

/-- A number that the user writes by a name. -/
inductive SurfaceConstant where
  | pi | euler | answer
  deriving DecidableEq, Repr

namespace SurfaceConstant

def name : SurfaceConstant → List Char
  | .pi => ['π']
  | .euler => ['e']
  | .answer => answerName

/-- The number, for a last answer. -/
def value (answer : Binary64) : SurfaceConstant → Binary64
  | .pi => .pi
  | .euler => .euler
  | .answer => answer

/-- The name has letters, so that it must not stand at another one. -/
def isWord : SurfaceConstant → Bool
  | .pi => false
  | .euler | .answer => true

end SurfaceConstant

/-! ## What may follow -/

/-- No name runs from what stands before the text into it. -/
def Apart (before : Option Char) (text : List Char) : Prop :=
  isBoundary before = true ∨ isBoundary text.head? = true

/-- Of what stands before a text only whether it is a boundary matters. -/
theorem substitute_apart {answer : Binary64} {before : Option Char} {text : List Char}
    (apart : Apart before text) :
    substitute answer 0 before text = substitute answer 0 none text := by
  rcases apart with boundary | boundary
  · cases text with
    | nil => rfl
    | cons c rest =>
      have same : ∀ word,
          standsAlone word before (c :: rest) = standsAlone word none (c :: rest) := by
        intro word
        rw [standsAlone, standsAlone, boundary]
        rfl
      simp only [substitute, same]
  · exact substitute_boundary boundary answer before

theorem expandOnward_apart {mode : AngleMode} {opened : List Bool} {before : Option Char}
    {text : List Char} (apart : Apart before text) :
    expandOnward mode opened 0 before text = expandOnward mode opened 0 none text := by
  cases text with
  | nil => rfl
  | cons c rest =>
    have same : SurfaceFunction.callAt? before (c :: rest) =
        SurfaceFunction.callAt? none (c :: rest) := by
      rcases apart with boundary | boundary
      · rw [SurfaceFunction.callAt?, SurfaceFunction.callAt?, boundary]
        rfl
      · have plain : c ∉ callStarts := by
          intro member
          have letter : ∀ d ∈ callStarts, isNameStart d = true := forall_mem_of_all (by decide)
          simp [isBoundary, letter c member] at boundary
        rw [callAt?_eq_none rest (.inl plain), callAt?_eq_none rest (.inl plain)]
    simp only [expandOnward, same]

section Canonical

variable (mode : AngleMode) (answer : Binary64)

/-- The canonical form of what stands behind a text of which these parentheses are open. -/
def canonicalBehind (opened : List Bool) (text : List Char) : List Char :=
  expandOnward mode opened 0 none (substitute answer 0 none text)

/-- Behind that text, this one has a canonical form that is read as these lexemes. -/
def CanonicallySpells (opened : List Bool) (text : List Char) (lexemes : List Lexeme) : Prop :=
  Spells (canonicalBehind mode answer opened text) lexemes

end Canonical

section Heads

variable {mode : AngleMode} {answer : Binary64} {opened : List Bool} {before : Option Char}
  {text : List Char} {d : Char}

theorem head?_substitute (h : (substitute answer 0 before text).head? = some d) :
    text.head? = some d ∨ d = '(' ∨ d = '*' ∧ text.head? = some '^' := by
  cases text with
  | nil => cases h
  | cons c rest =>
    have step : Replaces answer before c rest := replaces before c rest
    rcases step with ⟨x, skip, same, -⟩ | power | same
    · rw [same, enclosedLiteral_append] at h
      cases h
      exact .inr (.inl rfl)
    · rw [power, substitute_power] at h
      cases h
      exact .inr (.inr ⟨rfl, congrArg some power⟩)
    · rw [same] at h
      exact .inl h

theorem head?_expandOnward (h : (expandOnward mode opened 0 before text).head? = some d) :
    text.head? = some d ∨ (isNameStart d = true ∧ d ≠ 'E') ∧
      ∃ c, text.head? = some c ∧ isNameStart c = true := by
  cases text with
  | nil => cases h
  | cons c rest =>
    rw [expandOnward] at h
    split at h
    · rename_i f call
      right
      refine ⟨?_, c, rfl, ?_⟩
      · cases mode <;> cases f <;> cases h <;> decide
      · obtain ⟨-, rest', same⟩ := callAt?_eq_some call
        cases f <;> cases same <;> decide
    · left
      split at h
      · exact h
      · split at h <;> exact h

/-- What a canonical form starts with. -/
theorem head?_canonicalBehind (h : (canonicalBehind mode answer opened text).head? = some d) :
    text.head? = some d ∨ d = '(' ∨ d = '*' ∧ text.head? = some '^' ∨
      (isNameStart d = true ∧ d ≠ 'E') ∧ ∃ c, text.head? = some c ∧ isNameStart c = true := by
  rcases head?_expandOnward h with same | ⟨letter, c, head, start⟩
  · rcases head?_substitute same with first | opening | power
    · exact .inl first
    · exact .inr (.inl opening)
    · exact .inr (.inr (.inl power))
  · rcases head?_substitute head with first | rfl | ⟨rfl, -⟩
    · exact .inr (.inr (.inr ⟨letter, c, first, start⟩))
    · cases start
    · cases start

/-- A numeral that stops before a text stops before its canonical form. -/
theorem stops_canonicalBehind (h : Numeral.Stops text) :
    Numeral.Stops (canonicalBehind mode answer opened text) := by
  cases found : canonicalBehind mode answer opened text with
  | nil => exact Numeral.stops_nil
  | cons d rest =>
    have head : (canonicalBehind mode answer opened text).head? = some d := by
      rw [found]
      rfl
    rcases head?_canonicalBehind head with same | rfl | ⟨rfl, -⟩ | ⟨⟨letter, noMark⟩, -⟩
    · obtain ⟨noDigit, noPoint, noPower⟩ := h
      rw [same] at noDigit noPoint noPower
      exact ⟨noDigit, noPoint, noPower⟩
    · exact Numeral.stops_cons rest (by decide) (by decide) (by decide)
    · exact Numeral.stops_cons rest (by decide) (by decide) (by decide)
    · obtain ⟨digit, -, point⟩ := not_digit_of_isNameStart letter
      exact Numeral.stops_cons rest digit point noMark

/-- A name that stops before a text stops before its canonical form. -/
theorem stopsName_canonicalBehind (h : StopsName text) :
    StopsName (canonicalBehind mode answer opened text) := by
  intro d head
  rcases head?_canonicalBehind head with same | rfl | ⟨rfl, -⟩ | ⟨-, c, same, letter⟩
  · exact h d same
  · decide
  · decide
  · have stop := h c same
    rw [isNameChar, letter] at stop
    cases stop

theorem head?_canonicalBehind_ne_times (times : text.head? ≠ some '*')
    (power : text.head? ≠ some '^') :
    (canonicalBehind mode answer opened text).head? ≠ some '*' := by
  intro head
  rcases head?_canonicalBehind head with same | same | ⟨-, same⟩ | ⟨⟨letter, -⟩, -⟩
  · exact times same
  · cases same
  · exact power same
  · cases letter

theorem StopsName.apart (h : StopsName text) (before : Option Char) : Apart before text := by
  right
  cases text with
  | nil => rfl
  | cons c rest =>
    have stop := h c rfl
    rw [isNameChar, Bool.or_eq_false_iff] at stop
    simp [isBoundary, stop.1]

end Heads

/-! ## Tokens -/

/-- A text that starts with a boundary has a canonical form that does. -/
theorem Apart.substitute {answer : Binary64} {before before' : Option Char} {text : List Char}
    (apart : Apart before text) (boundary : isBoundary before = true → isBoundary before' = true) :
    Apart before' (Calculator.substitute answer 0 none text) := by
  rcases apart with front | head
  · exact .inl (boundary front)
  · right
    cases found : (Calculator.substitute answer 0 none text).head? with
    | none => rfl
    | some d =>
      rcases head?_substitute found with same | rfl | ⟨rfl, -⟩
      · rwa [same] at head
      · decide
      · decide

section Tokens

variable {mode : AngleMode} {answer : Binary64} {opened : List Bool} {text : List Char}

/-- A block stays in front of what it does not run into. -/
theorem Block.canonicalBehind_eq {u : List Char} (block : Block u)
    (apart : Apart (lastOf none u) text) :
    canonicalBehind mode answer opened (u ++ text) =
      u ++ canonicalBehind mode answer opened text := by
  rw [canonicalBehind, block.substitute, substitute_apart apart, block.expand,
    expandOnward_apart (apart.substitute id), canonicalBehind]

/-- A constant becomes its literal in parentheses, whatever follows. -/
theorem SurfaceConstant.canonicalBehind_eq (c : SurfaceConstant)
    (apart : c.isWord = true → isBoundary text.head? = true) :
    canonicalBehind mode answer opened (c.name ++ text) =
      enclosedLiteral (c.value answer) ++ canonicalBehind mode answer opened text := by
  have replaced : substitute answer 0 none (c.name ++ text) =
      enclosedLiteral (c.value answer) ++ substitute answer 0 none text := by
    cases c with
    | pi =>
      have behind : Apart (some 'π') text := .inl (by decide)
      rw [name, List.singleton_append, substitute_pi, substitute_apart behind]
      rfl
    | euler =>
      have alone : standsAlone ['e'] none ('e' :: text) = true := by
        have next : isBoundary text.head? = true := apart rfl
        have start : isBoundary none = true := rfl
        simp [standsAlone, next, start]
      rw [name, List.singleton_append, substitute, if_neg (by decide), if_neg (by decide),
        if_pos alone, substitute_apart (.inr (apart rfl))]
      rfl
    | answer => exact substitute_answerName rfl (apart rfl) answer
  have behind : Apart (lastOf none (enclosedLiteral (c.value answer)))
      (substitute answer 0 none text) := by
    left
    rw [enclosedLiteral, lastOf_append]
    rfl
  rw [canonicalBehind, replaced, (block_enclosedLiteral _).expand, expandOnward_apart behind,
    canonicalBehind]

/-- A character that no pass looks at stays. -/
theorem canonicalBehind_plain {c : Char} (boundary : isBoundary (some c) = true)
    (plain : c ∉ '(' :: ')' :: (replacedStarts ++ callStarts)) :
    canonicalBehind mode answer opened (c :: text) =
      c :: canonicalBehind mode answer opened text := by
  simp only [List.mem_cons, List.mem_append, not_or] at plain
  obtain ⟨opening, closing, replaced, call⟩ := plain
  have kept : expandOnward mode opened 0 none ([c] ++ substitute answer 0 (some c) text) = _ :=
    expandOnward_plain ⟨callAt?_eq_none _ (.inl call), opening, closing, trivial⟩
  rw [canonicalBehind, substitute_plain replaced, ← List.singleton_append, kept]
  have behind : Apart (some c) (substitute answer 0 (some c) text) := .inl boundary
  rw [lastOf, lastOf, expandOnward_apart behind, substitute_apart (.inl boundary), canonicalBehind]
  rfl

theorem notMem_of_isBlank {c : Char} (blank : isBlank c = true) :
    c ∉ '(' :: ')' :: (replacedStarts ++ callStarts) := by
  intro member
  have visible : ∀ d ∈ '(' :: ')' :: (replacedStarts ++ callStarts), isBlank d = false :=
    forall_mem_of_all (by decide)
  rw [visible c member] at blank
  cases blank

theorem canonicalBehind_blank {c : Char} (blank : isBlank c = true) :
    canonicalBehind mode answer opened (c :: text) =
      c :: canonicalBehind mode answer opened text :=
  canonicalBehind_plain (isBoundary_of_isBlank blank) (notMem_of_isBlank blank)

theorem canonicalBehind_power :
    canonicalBehind mode answer opened ('^' :: text) =
      '*' :: '*' :: canonicalBehind mode answer opened text := by
  have times : ∀ before rest, expandOnward mode opened 0 before ('*' :: rest) =
      '*' :: expandOnward mode opened 0 (some '*') rest := fun before rest =>
    expandOnward_plain (u := ['*']) ⟨callAt?_eq_none _ (.inl (by decide)), by decide, by decide,
      trivial⟩
  have behind : ∀ text', Apart (some '*') text' := fun _ => .inl (by decide)
  have power : Apart (some '^') text := .inl (by decide)
  rw [canonicalBehind, substitute_power, times, times, expandOnward_apart (behind _),
    substitute_apart power, canonicalBehind]

theorem canonicalBehind_opening :
    canonicalBehind mode answer opened ('(' :: text) =
      '(' :: canonicalBehind mode answer (false :: opened) text := by
  have behind : ∀ text', Apart (some '(') text' := fun _ => .inl (by decide)
  rw [canonicalBehind, substitute_plain (by decide), expandOnward_opening,
    expandOnward_apart (behind _), substitute_apart (behind _), canonicalBehind]

theorem canonicalBehind_closing :
    canonicalBehind mode answer opened (')' :: text) =
      ')' :: (mode.closing (opened.headD false) ++
        canonicalBehind mode answer opened.tail text) := by
  have behind : ∀ text', Apart (some ')') text' := fun _ => .inl (by decide)
  rw [canonicalBehind, substitute_plain (by decide), expandOnward_closing,
    expandOnward_apart (behind _), substitute_apart (behind _), canonicalBehind]

/-- The opening of a call becomes those of its primitives. -/
theorem SurfaceFunction.canonicalBehind_eq (f : SurfaceFunction) :
    canonicalBehind mode answer opened (f.name ++ '(' :: text) =
      f.opening mode ++ canonicalBehind mode answer (f.isAngular :: opened) text := by
  have behind : ∀ text', Apart (some '(') text' := fun _ => .inl (by decide)
  have opening : substitute answer 0 none ('(' :: text) = '(' :: substitute answer 0 none text := by
    rw [substitute_plain (by decide), substitute_apart (behind _)]
  rw [canonicalBehind, Calculator.substitute_name f none (.opening text), opening,
    expandOnward_call f rfl, expandOnward_apart (behind _), canonicalBehind]

/-- A name that has no meaning before the passes. -/
structure Bare (name : List Char) : Prop where
  isName : IsName name
  still (answer : Binary64) : substitute answer 0 none name = name
  silent : ∃ c rest, name = c :: rest ∧ quiet (some c) rest = true

/-- Inside letters nothing is replaced, and no call starts. -/
theorem still_of_letters {w : List Char} (letters : ∀ d ∈ w, isNameStart d = true)
    {before : Option Char} (inside : isBoundary before = false) :
    still before w = true ∧ quiet before w = true := by
  induction w generalizing before with
  | nil => exact ⟨rfl, rfl⟩
  | cons d w ih =>
    have letter := letters d List.mem_cons_self
    have further := ih (fun d member => letters d (List.mem_cons_of_mem _ member))
      (isBoundary_of_isNameStart letter)
    have pi : d ≠ 'π' := by
      rintro rfl
      cases letter
    have power : d ≠ '^' := by
      rintro rfl
      cases letter
    constructor
    · simp [still, further.1, inside, pi, power]
    · simp [quiet, further.2, inside]

/-- A word of letters that is no constant's name has no meaning before the passes. -/
theorem bare_of_letters {c : Char} {w : List Char} (letters : ∀ d ∈ c :: w, isNameStart d = true)
    (euler : c :: w ≠ ['e']) (answer : c :: w ≠ answerName) : Bare (c :: w) where
  isName := by
    refine ⟨⟨c, rfl, letters c List.mem_cons_self⟩, fun d member => ?_⟩
    rw [isNameChar, letters d (List.mem_cons_of_mem _ member)]
    rfl
  still last := by
    have alone : ∀ word, c :: w ≠ word → standsAlone word none (c :: w) = false := by
      intro word other
      rw [← Bool.not_eq_true]
      intro stands
      obtain ⟨-, behind, same, ends⟩ := standsAlone_iff.1 stands
      -- nothing but a letter could follow, and that is no boundary
      cases behind with
      | nil => exact other (by rw [same, List.append_nil])
      | cons d behind =>
        rw [List.head?_cons, isBoundary_of_isNameStart (letters d (by simp [same]))] at ends
        cases ends
    have start : isNameStart c = true := letters c List.mem_cons_self
    have inside := (still_of_letters (fun d member => letters d (List.mem_cons_of_mem _ member))
      (isBoundary_of_isNameStart start)).1
    have further : substitute last 0 (some c) (w ++ []) = _ := substitute_still_append inside []
    rw [List.append_nil, substitute, List.append_nil] at further
    have pi : c ≠ 'π' := by
      rintro rfl
      cases start
    have power : c ≠ '^' := by
      rintro rfl
      cases start
    rw [substitute_cons pi power (alone _ euler) (alone _ answer), further]
  silent := ⟨c, w, rfl, (still_of_letters
    (fun d member => letters d (List.mem_cons_of_mem _ member))
    (isBoundary_of_isNameStart (letters c List.mem_cons_self))).2⟩

/-- No parenthesis comes into the place of what is none. -/
theorem head?_substitute_ne_opening (stops : StopsName text) (opening : text.head? ≠ some '(')
    (pi : text.head? ≠ some 'π') :
    (substitute answer 0 none text).head? ≠ some '(' := by
  cases text with
  | nil => exact fun head => by cases head
  | cons c rest =>
    by_cases power : c = '^'
    · subst power
      rw [substitute_power]
      exact fun head => by cases head
    · have plain : c ∉ replacedStarts := by
        have stop := stops c rfl
        simp only [replacedStarts, List.mem_cons, List.not_mem_nil, or_false, not_or]
        refine ⟨fun same => pi (congrArg some same), power, ?_, ?_⟩ <;> rintro rfl <;> cases stop
      rw [substitute_plain plain]
      exact opening

/-- A name that is not called as a surface function stays. -/
theorem Bare.canonicalBehind_eq {name : List Char} (bare : Bare name) (stops : StopsName text)
    (noCall : (∀ f : SurfaceFunction, f.name ≠ name) ∨
      text.head? ≠ some '(' ∧ text.head? ≠ some 'π') :
    canonicalBehind mode answer opened (name ++ text) =
      name ++ canonicalBehind mode answer opened text := by
  have ends : isBoundary text.head? = true := (stops.apart (some 'a')).resolve_left (by decide)
  have replaced :
      substitute answer 0 none (name ++ text) = name ++ substitute answer 0 none text := by
    rw [substitute_append (Nat.zero_le _) (.inr ends), bare.still, substitute_apart (.inr ends)]
  have stops' : StopsName (substitute answer 0 none text) := by
    intro d head
    rcases head?_substitute head with same | rfl | ⟨rfl, -⟩
    · exact stops d same
    · decide
    · decide
  have call : SurfaceFunction.callAt? none (name ++ substitute answer 0 none text) = none := by
    cases found : SurfaceFunction.callAt? none (name ++ substitute answer 0 none text) with
    | none => rfl
    | some f =>
      -- both sides start with a name that ends there
      obtain ⟨-, rest, same⟩ := callAt?_eq_some found
      have called := Lexeme.takeWhile_isNameChar f.isNameChar_name (stopsName_opening rest)
      have kept := Lexeme.takeWhile_isNameChar bare.isName.all stops'
      rw [← same, kept] at called
      rcases noCall with other | ⟨opening, pi⟩
      · exact absurd called.symm (other f)
      · rw [called] at same
        have head : (substitute answer 0 none text).head? = some '(' := by
          rw [List.append_cancel_left same]
          rfl
        exact absurd head (head?_substitute_ne_opening stops opening pi)
  obtain ⟨c, rest, rfl, silent⟩ := bare.silent
  have parentheses : ∀ d ∈ c :: rest, d ≠ '(' ∧ d ≠ ')' := by
    intro d member
    have char := bare.isName.all d member
    constructor <;> rintro rfl <;> cases char
  have first := parentheses c List.mem_cons_self
  have plain : Plain (substitute answer 0 none text) none (c :: rest) :=
    ⟨call, first.1, first.2, plain_of_quiet silent fun d member =>
      parentheses d (List.mem_cons_of_mem _ member)⟩
  rw [canonicalBehind, replaced, expandOnward_plain plain, expandOnward_apart (stops'.apart _),
    canonicalBehind]

end Tokens

/-! ## Lexemes -/

/-- The lexemes of the literal of a number. -/
def literalLexemes (x : Binary64) : List Lexeme :=
  match Tokens.ofText (NumberFormat.literal.text x) with
  | .ok tokens => tokens.lexemes
  | .error _ => []

/-- How deep the literal of a number nests: its sign does. -/
def literalDepth (x : Binary64) : Nat :=
  if (NumberFormat.literal.text x).head? = some '-' then 1 else 0

theorem Writes.literalLexemes_eq {x : Binary64} {lexemes : List Lexeme} {t : Syntax}
    (h : Writes (NumberFormat.literal.text x) lexemes t) : literalLexemes x = lexemes := by
  obtain ⟨tokens, read, same⟩ := h.spells .ending spells_nil 0
  rw [List.append_nil] at read same
  rw [literalLexemes, Tokens.ofText, read]
  exact same

theorem literalDepth_signed {x : Binary64} {s : Sign} {text : List Char}
    (h : NumberFormat.literal.text x = NumberFormat.signed s text)
    (unsigned : text.head? ≠ some '-') :
    literalDepth x = s.lexemes.length := by
  rw [literalDepth, h]
  cases s with
  | positive => exact if_neg unsigned
  | negative => rfl

/-- A literal writes a tree of its number. -/
theorem writes_literal (x : Binary64) :
    ∃ t, Writes (NumberFormat.literal.text x) (literalLexemes x) t ∧
      t.value? .standard = some x ∧ t.depth = literalDepth x := by
  suffices h : ∃ lexemes t, Writes (NumberFormat.literal.text x) lexemes t ∧
      t.value? .standard = some x ∧ t.depth = literalDepth x by
    obtain ⟨lexemes, t, writes, further⟩ := h
    rw [writes.literalLexemes_eq]
    exact ⟨t, writes, further⟩
  have nan : IsName "NaN".toList := ⟨⟨'N', rfl, by decide⟩, forall_mem_of_all (by decide)⟩
  have infinity : IsName infinityName := ⟨⟨'I', rfl, by decide⟩, forall_mem_of_all (by decide)⟩
  rcases NumberFormat.literal_cases x with ⟨rfl, text⟩ | ⟨s, rfl, text⟩ | ⟨s, m, n, rfl, text, value⟩
  · exact ⟨_, _, writes_constant nan, rfl, rfl⟩
  · rw [literalDepth_signed text (by decide), text]
    cases s with
    | positive => exact ⟨_, _, writes_constant infinity, rfl, rfl⟩
    | negative => exact ⟨_, _, Writes.signedConstant .negative infinity, rfl, rfl⟩
  · rw [literalDepth_signed text (n.head?_text_ne (by decide) (by decide)), text]
    cases s with
    | positive => exact ⟨_, _, writes_number n, congrArg some value, rfl⟩
    | negative =>
      refine ⟨_, _, Writes.signedNumber .negative n, ?_, rfl⟩
      rw [Syntax.value?, Syntax.value?, value]
      rfl

/-- The lexemes of what a constant becomes. -/
def SurfaceConstant.lexemes (answer : Binary64) (c : SurfaceConstant) : List Lexeme :=
  enclosed (literalLexemes (c.value answer))

theorem spells_enclosedLiteral (x : Binary64) {rest : List Char} {ls : List Lexeme}
    (h : Spells rest ls) :
    Spells (enclosedLiteral x ++ rest) (enclosed (literalLexemes x) ++ ls) := by
  obtain ⟨t, writes, -⟩ := writes_literal x
  exact writes.spells_parenthesized h

namespace SurfaceFunction

/-- The lexemes of the base of a power. -/
def baseLexemes : SurfaceFunction → List Lexeme
  | .pow10 => [.number .ten, .operator .comma]
  | .powE => enclosed (literalLexemes .euler) ++ [.operator .comma]
  | _ => []

/-- The lexemes of what the opening of a call becomes. -/
def openingLexemes (mode : AngleMode) (f : SurfaceFunction) : List Lexeme :=
  (f.stages mode).flatMap (fun p => [.name p.name, .operator .opening]) ++ f.baseLexemes

theorem spells_base (f : SurfaceFunction) {rest : List Char} {ls : List Lexeme}
    (h : Spells rest ls) : Spells (f.base ++ rest) (f.baseLexemes ++ ls) := by
  have comma := (leads_comma rest).spells h
  cases f with
  | pow10 => exact comma.number .ten (Numeral.stops_cons _ (by decide) (by decide) (by decide))
  | powE =>
    rw [base, baseLexemes, List.append_assoc, List.append_assoc]
    exact spells_enclosedLiteral .euler comma
  | _ => exact h

theorem spells_opening (mode : AngleMode) (f : SurfaceFunction) {rest : List Char}
    {ls : List Lexeme} (h : Spells rest ls) :
    Spells (f.opening mode ++ rest) (f.openingLexemes mode ++ ls) := by
  rw [opening_eq, openingLexemes, List.append_assoc, List.append_assoc]
  exact (leads_stages (f.stages mode) _).spells (f.spells_base h)

end SurfaceFunction

/-- The lexemes that close what the opening of a call has opened in addition. -/
def AngleMode.closingLexemes (mode : AngleMode) (angular : Bool) : List Lexeme :=
  if mode = .degrees ∧ angular then [.operator .closing] else []

theorem AngleMode.spells_closing (mode : AngleMode) (angular : Bool) {rest : List Char}
    {ls : List Lexeme} (h : Spells rest ls) :
    Spells (mode.closing angular ++ rest) (mode.closingLexemes angular ++ ls) := by
  unfold closing closingLexemes
  split
  · exact leads_closing.spells h
  · exact h

namespace CanonicallySpells

variable {mode : AngleMode} {answer : Binary64} {opened : List Bool} {text : List Char}
  {ls : List Lexeme}

theorem nil : CanonicallySpells mode answer opened [] [] :=
  spells_nil

theorem blank {c : Char} (blank : isBlank c = true)
    (h : CanonicallySpells mode answer opened text ls) :
    CanonicallySpells mode answer opened (c :: text) ls := by
  rw [CanonicallySpells, canonicalBehind_blank blank]
  exact Spells.blank blank h

theorem number (n : Numeral) (stops : Numeral.Stops text)
    (h : CanonicallySpells mode answer opened text ls) :
    CanonicallySpells mode answer opened (n.text ++ text) (.number n :: ls) := by
  have apart : Apart (lastOf none n.text) text := .inl (isBoundary_lastOf_numeral n none)
  rw [CanonicallySpells, (operandText_number n).block.canonicalBehind_eq apart]
  exact Spells.number n (stops_canonicalBehind stops) h

theorem constant (c : SurfaceConstant) (apart : c.isWord = true → isBoundary text.head? = true)
    (h : CanonicallySpells mode answer opened text ls) :
    CanonicallySpells mode answer opened (c.name ++ text) (c.lexemes answer ++ ls) := by
  rw [CanonicallySpells, c.canonicalBehind_eq apart]
  exact spells_enclosedLiteral _ h

theorem name {name : List Char} (bare : Bare name) (stops : StopsName text)
    (noCall : (∀ f : SurfaceFunction, f.name ≠ name) ∨
      text.head? ≠ some '(' ∧ text.head? ≠ some 'π')
    (h : CanonicallySpells mode answer opened text ls) :
    CanonicallySpells mode answer opened (name ++ text) (.name name :: ls) := by
  rw [CanonicallySpells, bare.canonicalBehind_eq stops noCall]
  exact Spells.name bare.isName (stopsName_canonicalBehind stops) h

theorem call (f : SurfaceFunction)
    (h : CanonicallySpells mode answer (f.isAngular :: opened) text ls) :
    CanonicallySpells mode answer opened (f.name ++ '(' :: text)
      (f.openingLexemes mode ++ ls) := by
  rw [CanonicallySpells, f.canonicalBehind_eq]
  exact f.spells_opening mode h

theorem opening (h : CanonicallySpells mode answer (false :: opened) text ls) :
    CanonicallySpells mode answer opened ('(' :: text) (.operator .opening :: ls) := by
  rw [CanonicallySpells, canonicalBehind_opening]
  exact leads_opening.spells h

theorem closing (h : CanonicallySpells mode answer opened.tail text ls) :
    CanonicallySpells mode answer opened (')' :: text)
      (.operator .closing :: (mode.closingLexemes (opened.headD false) ++ ls)) := by
  rw [CanonicallySpells, canonicalBehind_closing]
  exact leads_closing.spells (mode.spells_closing _ h)

theorem comma (h : CanonicallySpells mode answer opened text ls) :
    CanonicallySpells mode answer opened (',' :: text) (.operator .comma :: ls) := by
  rw [CanonicallySpells, canonicalBehind_plain (by decide) (by decide)]
  exact Spells.operator .comma (by intro h; cases h) h

/-- The power sign of two characters stays. -/
theorem doubleTimes (h : CanonicallySpells mode answer opened text ls) :
    CanonicallySpells mode answer opened ('*' :: '*' :: text) (.operator .power :: ls) := by
  rw [CanonicallySpells, canonicalBehind_plain (by decide) (by decide),
    canonicalBehind_plain (by decide) (by decide)]
  exact Spells.operator .power (by intro h; cases h) h

/-- A times sign must not run into another one. -/
theorem operator (o : SurfaceOperator)
    (single : o = .times → text.head? ≠ some '*' ∧ text.head? ≠ some '^')
    (h : CanonicallySpells mode answer opened text ls) :
    CanonicallySpells mode answer opened (o.char :: text) (.operator o.canonical :: ls) := by
  have plain : o ≠ .power → o.char ∉ '(' :: ')' :: (replacedStarts ++ callStarts) ∧
      isBoundary (some o.char) = true ∧ [o.char] = o.canonical.text := by
    intro other
    cases o <;> first | exact absurd rfl other | exact ⟨by decide, by decide, rfl⟩
  by_cases power : o = .power
  · subst power
    have canonical : canonicalBehind mode answer opened ('^' :: text) = _ := canonicalBehind_power
    rw [CanonicallySpells, SurfaceOperator.char, canonical]
    exact Spells.operator .power (by intro h; cases h) h
  · obtain ⟨kept, boundary, same⟩ := plain power
    rw [CanonicallySpells, canonicalBehind_plain boundary kept, ← List.singleton_append, same]
    refine Spells.operator o.canonical (fun times => ?_) h
    have isTimes : o = .times := by cases o <;> first | rfl | cases times
    exact head?_canonicalBehind_ne_times (single isTimes).1 (single isTimes).2

/-- An expression is evaluated by the rules from the lexemes of its canonical form. -/
theorem evaluateWith_eq (h : CanonicallySpells mode answer [] (trimBlanks text) ls)
    (short : text.length ≤ lengthLimit) (registry : Registry) :
    ∃ tokens : Tokens, tokens.lexemes = ls ∧
      evaluateWith registry text mode answer = tokens.value registry nestingLimit := by
  obtain ⟨tokens, read, same⟩ := h 0
  refine ⟨tokens, same, ?_⟩
  rw [evaluateWith, canonicalize, if_neg (Nat.not_lt.2 short), ok_bind, evaluateCanonicalWith,
    Tokens.ofText, canonical, expandCalls_eq_expandOnward]
  rw [canonicalBehind] at read
  rw [read, ok_bind]

end CanonicallySpells

end Calculator
