import Calculator.Proofs.Degrees.Registry
import Calculator.Proofs.Degrees.Words
import Calculator.Proofs.Surface.Meaning
import Calculator.Proofs.Token.Front

/-!
# Lexemes in degrees and in radians

The canonical forms of one expression are both read or both refused. Lexeme by lexeme they are the
same, but for calls of angles: in degrees two primitives are called where in radians one is, and both
are closed where the one is. A name may run into a digit and a name in front of it, and what it
then runs into is known in neither form.
-/
namespace Calculator

/-- The lexemes of the canonical forms in degrees and in radians. Of each open parenthesis, the
innermost first, it is known whether it opened a call of an angle. -/
inductive Wrapped : List Bool → List Lexeme → List Lexeme → Prop
  | ending {opened : List Bool} : Wrapped opened [] []
  | number {opened : List Bool} {d r : List Lexeme} (n : Numeral) (further : Wrapped opened d r) :
      Wrapped opened (.number n :: d) (.number n :: r)
  | operator {opened : List Bool} {d r : List Lexeme} (o : Operator) (opening : o ≠ .opening)
      (closing : o ≠ .closing) (further : Wrapped opened d r) :
      Wrapped opened (.operator o :: d) (.operator o :: r)
  | name {opened : List Bool} {d r : List Lexeme} (name : List Char)
      (bare : ∀ p : Primitive, p.name = name → p.wrapper?.isSome = true →
        d.head? ≠ some (.operator .opening))
      (further : Wrapped opened d r) : Wrapped opened (.name name :: d) (.name name :: r)
  | opening {opened : List Bool} {d r : List Lexeme} (further : Wrapped (false :: opened) d r) :
      Wrapped opened (.operator .opening :: d) (.operator .opening :: r)
  | call {opened : List Bool} {d r : List Lexeme} {p outer inner : Primitive}
      (wrapper : p.wrapper? = some (outer, inner)) (further : Wrapped (true :: opened) d r) :
      Wrapped opened
        (.name outer.name :: .operator .opening :: .name inner.name :: .operator .opening :: d)
        (.name p.name :: .operator .opening :: r)
  | closing {opened : List Bool} {d r : List Lexeme} (single : opened.headD false = false)
      (further : Wrapped opened.tail d r) :
      Wrapped opened (.operator .closing :: d) (.operator .closing :: r)
  | double {opened : List Bool} {d r : List Lexeme} (further : Wrapped opened d r) :
      Wrapped (true :: opened) (.operator .closing :: .operator .closing :: d)
        (.operator .closing :: r)
  | unknown {opened : List Bool} {name name' : List Char} (unknown : IsUnknown name)
      (unknown' : IsUnknown name') (d r : List Lexeme) :
      Wrapped opened (.name name :: d) (.name name' :: r)

/-- Both texts are refused, or they are read as such lexemes. -/
inductive ReadWrapped (opened : List Bool) (D R : List Char) : Prop
  | refused (first : Unreadable D) (second : Unreadable R)
  | read {d r : List Lexeme} (first : Spells D d) (second : Spells R r) (wrapped : Wrapped opened d r)

/-- Lexemes in front of both texts. -/
theorem ReadWrapped.lead {opened opened' : List Bool} {D R D' R' : List Char} {ds rs : List Lexeme}
    (h : ReadWrapped opened D R) (first : Leads D' ds D) (second : Leads R' rs R)
    (wrapped : ∀ {d r}, Spells D d → Wrapped opened d r → Wrapped opened' (ds ++ d) (rs ++ r)) :
    ReadWrapped opened' D' R' := by
  cases h with
  | refused failing failing' => exact .refused (first.unreadable failing) (second.unreadable failing')
  | read spelled spelled' h =>
    exact .read (first.spells spelled) (second.spells spelled') (wrapped spelled h)

/-! ## Parentheses -/

section Parentheses

variable {opened : List Bool} {D R : List Char}

theorem ReadWrapped.opening (h : ReadWrapped (false :: opened) D R) :
    ReadWrapped opened ('(' :: D) ('(' :: R) :=
  h.lead leads_opening leads_opening fun _ h => .opening h

/-- A parenthesis is closed, and in degrees what a call of an angle needs in addition. -/
theorem ReadWrapped.closing (h : ReadWrapped opened.tail D R) :
    ReadWrapped opened (')' :: (AngleMode.degrees.closing (opened.headD false) ++ D))
      (')' :: (AngleMode.radians.closing (opened.headD false) ++ R)) := by
  cases opened with
  | nil => exact h.lead leads_closing leads_closing fun _ h => .closing rfl h
  | cons angular opened =>
    cases angular with
    | false => exact h.lead leads_closing leads_closing fun _ h => .closing rfl h
    | true => exact h.lead (leads_closing.trans leads_closing) leads_closing fun _ h => .double h

end Parentheses

/-! ## Names that stand alone -/

/-- The text calls no primitive of an angle by its own name, and has no blank behind the name of a
function of an angle. -/
structure Clean (before : Option Char) (text : List Char) : Prop where
  inverse : ∀ p ∈ [Primitive.asin, .acos, .atan], standsIn p.name endsName before text = false
  spaced : ∀ p ∈ [Primitive.sin, .cos, .tan], standsIn p.name isSpaced before text = false

theorem Clean.tail {before : Option Char} {c : Char} {rest : List Char}
    (h : Clean before (c :: rest)) : Clean (some c) rest where
  inverse p member := by
    have unused := h.inverse p member
    rw [standsIn, Bool.or_eq_false_iff] at unused
    exact unused.2
  spaced p member := by
    have unused := h.spaced p member
    rw [standsIn, Bool.or_eq_false_iff] at unused
    exact unused.2

theorem Clean.append {before : Option Char} {u w : List Char} (h : Clean before (u ++ w)) :
    Clean (lastOf before u) w := by
  induction u generalizing before with
  | nil => exact h
  | cons c u ih => exact ih h.tail

/-- A primitive of an angle that starts here is neither called nor followed by a blank. -/
theorem Clean.bare {before : Option Char} {p : Primitive} {c : Char} {rest : List Char}
    (clean : Clean before (p.name ++ c :: rest)) (boundary : isBoundary before = true)
    (angular : p.wrapper?.isSome = true)
    (plain : SurfaceFunction.callAt? before (p.name ++ c :: rest) = none) :
    isBlank c = false ∧ c ≠ '(' := by
  have stands : ∀ next : Option Char → Bool, next (some c) = true →
      standsIn p.name next before (p.name ++ c :: rest) = true := by
    intro next follows
    cases text : p.name with
    | nil => cases p <;> cases text
    | cons d name =>
      rw [List.cons_append, standsIn_cons]
      exact .inl ⟨boundary, c :: rest, rfl, follows⟩
  have unused : ∀ {next : Option Char → Bool},
      standsIn p.name next before (p.name ++ c :: rest) = false → next (some c) ≠ true := by
    intro next none follows
    rw [stands next follows] at none
    cases none
  have named : ∀ f : SurfaceFunction, f.name = p.name → c ≠ '(' := by
    rintro f same rfl
    rw [← same, callAt?_name f boundary] at plain
    cases plain
  have inverse : p ∈ [Primitive.asin, .acos, .atan] → isBlank c = false ∧ c ≠ '(' := by
    intro member
    have further := unused (clean.inverse p member)
    refine ⟨?_, ?_⟩
    · cases blank : isBlank c with
      | false => rfl
      | true => exact absurd (by rw [endsName, Option.any_some, isNameChar_of_isBlank blank]; rfl) further
    · rintro rfl
      exact further (by decide)
  have direct : p ∈ [Primitive.sin, .cos, .tan] → isBlank c = false := by
    intro member
    have further := unused (clean.spaced p member)
    simpa [isSpaced] using further
  cases p with
  | sin => exact ⟨direct (by decide), named .sin rfl⟩
  | cos => exact ⟨direct (by decide), named .cos rfl⟩
  | tan => exact ⟨direct (by decide), named .tan rfl⟩
  | asin | acos | atan => exact inverse (by decide)
  | _ => cases angular

/-! ## Text between parentheses and calls -/

theorem isBoundary_char (d : Digit) : isBoundary (some d.char) = true := by
  cases start : isNameStart d.char with
  | false => simp [isBoundary, start]
  | true =>
    have value := (not_digit_of_isNameStart start).1
    rw [d.isDigit] at value
    cases value

/-- A name may start right behind a numeral. -/
theorem isBoundary_lastOf_numeral (n : Numeral) (before : Option Char) :
    isBoundary (lastOf before n.text) = true := by
  rw [lastOf_eq]
  rcases n.getLast?_text with point | ⟨d, digit⟩
  · rw [point]
    rfl
  · rw [digit]
    exact isBoundary_char d

theorem Spells.head?_ne_opening {c : Char} {rest : List Char} {d : List Lexeme}
    (h : Spells (c :: rest) d) (visible : isBlank c = false) (other : c ≠ '(') :
    d.head? ≠ some (.operator .opening) := by
  obtain ⟨tokens, read, rfl⟩ := h 0
  rw [Tokens.read, visible] at read
  cases found : Lexeme.scan? (c :: rest) with
  | none =>
    rw [found] at read
    cases read
  | some lexeme =>
    rw [found] at read
    obtain ⟨further, -, rfl⟩ := map_eq_ok read
    intro head
    cases head
    obtain ⟨tail, same⟩ := Lexeme.exists_append_of_scan? found
    cases same
    exact other rfl

/-- A lexeme that both texts have in front is found in both. -/
theorem ReadWrapped.lexeme {opened : List Bool} {lexeme : Lexeme} {u D R : List Char}
    (found : Lexeme.scan? (lexeme.text ++ u) = some lexeme) (inert : Inert D) (inert' : Inert R)
    (ends : lexeme ≠ .name (lexeme.text ++ u)) (h : ReadWrapped opened (u ++ D) (u ++ R))
    (wrapped : ∀ {d r}, Spells (u ++ D) d → Wrapped opened d r →
      Wrapped opened (lexeme :: d) (lexeme :: r)) :
    ReadWrapped opened (lexeme.text ++ u ++ D) (lexeme.text ++ u ++ R) := by
  have nonempty : lexeme.text ++ u ≠ [] :=
    List.append_ne_nil_of_left_ne_nil (Lexeme.text_ne_nil_of_scan? found) u
  have leads : ∀ {X}, Inert X → Leads (lexeme.text ++ u ++ X) [lexeme] (u ++ X) := by
    intro X inert
    have again : Lexeme.scan? (lexeme.text ++ u ++ X) = some lexeme := by
      rw [Lexeme.scan?_append nonempty inert ?_, found]
      intro whole
      rw [found] at whole
      exact absurd (Option.some.inj whole) ends
    rw [List.append_assoc] at *
    exact .lexeme lexeme again (.here _)
  exact h.lead (leads inert) (leads inert') wrapped

/-- What both texts have in front is read in both alike. -/
theorem ReadWrapped.behind {opened : List Bool} {tail D R : List Char} {last : Option Char}
    (inert : Inert D) (inert' : Inert R) (after : ReadWrapped opened D R)
    (joined : ∀ name before, IsName name → isBoundary before = true → lastOf before name = last →
      Plain tail before name → Clean before (name ++ tail) →
      ReadWrapped opened (name ++ D) (name ++ R))
    {u : List Char} {before : Option Char} (ends : lastOf before u = last)
    (plain : Plain tail before u) (clean : Clean before (u ++ tail))
    (start : isBoundary before = true ∨ StopsName u) : ReadWrapped opened (u ++ D) (u ++ R) := by
  induction size : u.length using Nat.strongRecOn generalizing u before with
  | ind count ih =>
    cases u with
    | nil => exact after
    | cons c u =>
      cases blank : isBlank c with
      | true =>
        have further : ReadWrapped opened (u ++ D) (u ++ R) :=
          ih u.length (by rw [← size]; exact Nat.lt_succ_self _) ends plain.2.2.2 clean.tail
            (.inl (isBoundary_of_isBlank blank)) rfl
        exact further.lead (.blank blank (.here _)) (.blank blank (.here _)) fun _ h => h
      | false =>
        cases found : Lexeme.scan? (c :: u) with
        | none =>
          have same : ∀ {X}, Inert X → Lexeme.scan? (c :: u ++ X) = none := by
            intro X inert
            rw [Lexeme.scan?_append (List.cons_ne_nil c u) inert (by rw [found]; intro h; cases h),
              found]
          exact .refused (unreadable_of_scan? blank (same inert))
            (unreadable_of_scan? blank (same inert'))
        | some lexeme =>
          obtain ⟨w, same⟩ := Lexeme.exists_append_of_scan? found
          have nonempty := Lexeme.text_ne_nil_of_scan? found
          rw [← same] at found plain clean size start ends ⊢
          have shorter : w.length < count := by
            have positive := List.length_pos_iff.2 nonempty
            rw [List.length_append] at size
            omega
          have rest : isBoundary (lastOf before lexeme.text) = true ∨ StopsName w →
              ReadWrapped opened (w ++ D) (w ++ R) := by
            intro start
            rw [lastOf_append] at ends
            rw [List.append_assoc] at clean
            exact ih w.length shorter ends plain.append clean.append start rfl
          cases lexeme with
          | number n =>
            exact ReadWrapped.lexeme found inert inert' (fun h => by cases h)
              (rest (.inl (isBoundary_lastOf_numeral n before))) fun _ h => .number n h
          | operator o =>
            have boundary : isBoundary (lastOf before o.text) = true := by cases o <;> rfl
            have opening : o ≠ .opening := by
              rintro rfl
              exact plain.2.1 rfl
            have closing : o ≠ .closing := by
              rintro rfl
              exact plain.2.2.1 rfl
            exact ReadWrapped.lexeme found inert inert' (fun h => by cases h)
              (rest (.inl boundary)) fun _ h => .operator o opening closing h
          | name name =>
            obtain ⟨isName, w', same', stops⟩ := Lexeme.name_of_scan? found
            have behind : w = w' := List.append_cancel_left same'
            rw [← behind] at stops
            have boundary : isBoundary before = true := by
              rcases start with boundary | stop
              · exact boundary
              · obtain ⟨d, head, letter⟩ := isName.start
                have further := stop d (by rw [List.head?_append]; simp [Lexeme.text, head])
                rw [isNameChar, letter] at further
                cases further
            cases w with
            | nil =>
              simp only [Lexeme.text, List.append_nil] at *
              exact joined name before isName boundary ends plain clean
            | cons b w =>
              refine ReadWrapped.lexeme found inert inert' ?_ (rest (.inr stops)) fun spelled h => ?_
              · intro whole
                have length := congrArg List.length (Lexeme.name.inj whole)
                simp [Lexeme.text] at length
              · refine .name name (fun p same angular => ?_) h
                subst same
                have call := plain.callAt?_eq_none (List.append_ne_nil_of_left_ne_nil nonempty _)
                simp only [Lexeme.text, List.append_assoc, List.cons_append] at call clean
                obtain ⟨visible, other⟩ := clean.bare boundary angular call
                exact spelled.head?_ne_opening visible other

end Calculator
