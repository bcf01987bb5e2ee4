import Calculator.Proofs.Degrees.Places

/-!
# Reading in degrees and in radians

The rules of the grammar read both forms side by side, over the standard primitives in degrees and
over those with angles in degrees in radians. Values are the same and faults are of one kind, unless
the form in degrees, which nests deeper, is found too deep.
-/
namespace Calculator

theorem IsUnknown.function?_eq_none {name : List Char} (h : IsUnknown name) :
    Registry.standard.function? name = none ∧ Registry.ofDegrees.function? name = none := by
  simp [Registry.standard, Registry.ofDegrees, h.function]

namespace Rules

/-- Rules for what nests inside, over the two registries, that read alike. A call of an angle is
read as the two calls it is in degrees. -/
structure Match (inner inner' : Rules) : Prop where
  derive : inner.Derive
  derive' : inner'.Derive
  expression {opened : List Bool} {c c' : Cursor} (h : Alike opened c c') :
    Matches (Same opened) (inner.expression c) (inner'.expression c')
  power {opened : List Bool} {c c' : Cursor} (h : Alike opened c c') :
    Matches (Same opened) (inner.power c) (inner'.power c')
  unary {opened : List Bool} {c c' : Cursor} (h : Alike opened c c') :
    Matches (Same opened) (inner.unary c) (inner'.unary c')
  arguments {angular : Bool} {opened : List Bool} {c c' : Cursor}
    (h : Alike (angular :: opened) c c') :
    Matches (SameArguments angular opened) (inner.arguments c) (inner'.arguments c')
  wrapped {p outer innermost : Primitive} (wrapper : p.wrapper? = some (outer, innermost))
    {opened : List Bool} {c c' : Cursor} (next : c.next? = some (.name innermost.name))
    (opens : c.advance.operator? = some .opening)
    (h : Alike (true :: opened) c.advance.advance c') :
    Matches (Same opened) (called outer.name outer.function (inner.arguments c))
      (called p.name p.inDegrees (inner'.arguments c'))

section Level

variable {inner inner' : Rules} (rules : inner.Match inner')

include rules

theorem named_matches {opened : List Bool} {name : List Char} {c c' : Cursor}
    (h : Alike opened c c') (bare : ∀ p : Primitive, p.name = name → p.wrapper?.isSome = true →
      c.operator? ≠ some .opening) :
    Matches (Same opened) (named .standard inner name c) (named .ofDegrees inner' name c') := by
  cases found : Primitive.ofName? name with
  | some p =>
    obtain rfl := Primitive.name_of_ofName? found
    rw [named_of_function (Registry.standard_function? p),
      named_of_function (Registry.ofDegrees_function? p), ← h.operator?_eq]
    by_cases opening : c.operator? = some .opening
    · have plain : p.wrapper? = none := by
        cases wrapper : p.wrapper? with
        | none => rfl
        | some pair => exact absurd opening (bare p rfl (by rw [wrapper]; rfl))
      rw [if_pos opening, if_pos opening, Primitive.inDegrees_of_wrapper? plain]
      exact called_matches _ _ (rules.arguments (h.advance_opening opening))
    · rw [if_neg opening, if_neg opening]
      exact .fault rfl
  | none =>
    have missing : Registry.standard.function? name = none := by simp [Registry.standard, found]
    have missing' : Registry.ofDegrees.function? name = none := by simp [Registry.ofDegrees, found]
    have constants : Registry.ofDegrees.constant? name = Registry.standard.constant? name := rfl
    rw [named_of_no_function missing, named_of_no_function missing', constants, ← h.operator?_eq]
    cases Registry.standard.constant? name with
    | none => exact .fault rfl
    | some value =>
      by_cases opening : c.operator? = some .opening
      · simp only [if_pos opening]
        exact .fault rfl
      · simp only [if_neg opening]
        exact .value ⟨rfl, h⟩

theorem primary_matches {opened : List Bool} {c c' : Cursor} (h : Alike opened c c') :
    Matches (Same opened) (primary .standard inner c) (primary .ofDegrees inner' c') := by
  cases h.ahead with
  | ending next next' =>
    obtain ⟨position, read⟩ := primary_of_end .standard inner next
    obtain ⟨position', read'⟩ := primary_of_end .ofDegrees inner' next'
    rw [read, read']
    exact .fault rfl
  | number n next next' further =>
    rw [primary_of_number _ _ next, primary_of_number _ _ next']
    exact .value ⟨rfl, further⟩
  | @operator o next next' passing =>
    by_cases opening : o = .opening
    · subst opening
      rw [primary_of_opening _ _ next, primary_of_opening _ _ next']
      refine (rules.expression (h.advance_opening next)).bind ?_
      rintro ⟨x, c₁⟩ ⟨_, c₂⟩ - - ⟨rfl, inside⟩
      refine inside.expect_closing.bind ?_
      intro c₁ c₂ _ _ further
      exact .value ⟨rfl, further⟩
    · obtain ⟨position, read⟩ := primary_of_operator .standard inner next opening
      obtain ⟨position', read'⟩ := primary_of_operator .ofDegrees inner' next' opening
      rw [read, read']
      exact .fault rfl
  | name name next next' bare further =>
    rw [primary_of_name _ _ next, primary_of_name _ _ next']
    exact named_matches rules further bare
  | @call p outer innermost wrapper next opens inside opens₂ next' opens' further =>
    rw [primary_of_name _ _ next, primary_of_name _ _ next',
      named_of_function (Registry.standard_function? outer), if_pos opens,
      named_of_function (Registry.ofDegrees_function? p), if_pos opens']
    exact rules.wrapped wrapper inside opens₂ further
  | unknown unknown unknown' next next' =>
    have missing := unknown.function?_eq_none.1
    have missing' := unknown'.function?_eq_none.2
    have constant : Registry.standard.constant? _ = none := unknown.constant
    have constant' : Registry.ofDegrees.constant? _ = none := unknown'.constant
    rw [primary_of_name _ _ next, primary_of_name _ _ next', named_of_no_function missing, constant,
      named_of_no_function missing', constant']
    exact .fault rfl

theorem signed_matches {opened : List Bool} {c c' : Cursor} (h : Alike opened c c') :
    Matches (Same opened) (signed .standard inner c) (signed .ofDegrees inner' c') := by
  by_cases symbol : ∃ sign : Sign, c.operator? = some sign.symbol
  · obtain ⟨sign, symbol⟩ := symbol
    have symbol' := symbol
    rw [h.operator?_eq] at symbol'
    have behind := h.advance symbol (by cases sign <;> decide) (by cases sign <;> decide)
    rw [signed_of_sign _ _ symbol, signed_of_sign _ _ symbol']
    refine (rules.unary behind).bind ?_
    rintro ⟨x, c₁⟩ ⟨y, c₂⟩ - - ⟨rfl, further⟩
    exact .value ⟨rfl, further⟩
  · have absent : ∀ sign : Sign, c.operator? ≠ some sign.symbol := fun sign found =>
      symbol ⟨sign, found⟩
    rw [signed_of_no_sign _ _ absent, signed_of_no_sign _ _ (by rwa [← h.operator?_eq])]
    exact primary_matches rules h

/-- Between two parentheses the same phrases are read in both forms. -/
theorem beside (opened : List Bool) :
    Beside (Alike opened) (Alike opened) .standard .ofDegrees inner inner' where
  joins := {
    operator?_eq := Alike.operator?_eq
    startsAlone_iff := Alike.startsAlone_iff
    before_of_startsAlone := fun h _ => h
    advance := Alike.advance }
  derive := rules.derive
  derive' := rules.derive'
  signed := signed_matches rules
  power := rules.power

theorem argumentList_matches {angular : Bool} {opened : List Bool} {c c' : Cursor}
    (h : Alike (angular :: opened) c c') :
    Matches (SameArguments angular opened) (argumentList .standard inner c)
      (argumentList .ofDegrees inner' c') := by
  unfold argumentList
  rw [← h.operator?_eq]
  split
  · rename_i closing
    exact .value ⟨rfl, h.advance_closing closing⟩
  · refine ((beside rules _).sum h).bind ?_
    rintro ⟨value, c₁⟩ ⟨_, c₂⟩ - - ⟨rfl, further⟩
    refine ((beside rules _).moreArguments further (Nat.le_refl _) (Nat.le_refl _)).bind ?_
    rintro ⟨values, c₁⟩ ⟨_, c₂⟩ - - ⟨rfl, further⟩
    refine further.expect_closing.bind ?_
    intro c₁ c₂ _ _ closed
    exact .value ⟨rfl, closed⟩

end Level

/-! ## Calls of two primitives -/

theorem sum_of_primary_closing {registry : Registry} {inner : Rules} {c c₁ : Cursor} {x : Binary64}
    (noSign : ∀ sign : Sign, c.operator? ≠ some sign.symbol)
    (read : primary registry inner c = .ok (x, c₁)) (closing : c₁.operator? = some .closing) :
    sum registry inner c = .ok (x, c₁) := by
  have noPower : c₁.operator? ≠ some .power := by
    rw [closing]
    decide
  have noLink : ∀ link : Link, ∀ operator, link.symbol? = some operator →
      c₁.operator? ≠ some operator := by
    intro link operator written
    rw [closing]
    cases link <;> cases written <;> decide
  have noStart : ¬ c₁.StartsAlone := by
    rintro (h | h | ⟨h, -⟩)
    · rw [Cursor.operator?_of_next?_name h] at closing
      cases closing
    · rw [h] at closing
      cases closing
    · rw [Cursor.operator?_of_next?_number h] at closing
      cases closing
  have noTerm : ∀ sign : Sign, c₁.operator? ≠ some sign.symbol := by
    intro sign
    rw [closing]
    cases sign <;> decide
  rw [sum, term, raised, signed_of_no_sign _ _ noSign, read]
  simp only [ok_bind, if_neg noPower, factors_of_neither _ _ noLink noStart,
    terms_of_no_sign _ _ noTerm]

theorem sum_of_primary_failure {registry : Registry} {inner : Rules} {c : Cursor} {fault : Fault}
    (noSign : ∀ sign : Sign, c.operator? ≠ some sign.symbol)
    (read : primary registry inner c = .error fault) : sum registry inner c = .error fault := by
  rw [sum, term, raised, signed_of_no_sign _ _ noSign, read]
  rfl

/-- A call that is the only argument of another one. -/
theorem argumentList_of_call {registry : Registry} {inner : Rules} {c : Cursor} {name : List Char}
    {function : Function} (next : c.next? = some (.name name))
    (opens : c.advance.operator? = some .opening) (found : registry.function? name = some function)
    (closes : ∀ xs c₁, inner.arguments c.advance.advance = .ok (xs, c₁) →
      c₁.operator? = some .closing) :
    argumentList registry inner c =
      called name function (inner.arguments c.advance.advance) >>= fun result =>
        .ok ([result.1], result.2.advance) := by
  have none := Cursor.operator?_of_next?_name next
  have noSign : ∀ sign : Sign, c.operator? ≠ some sign.symbol := by
    intro sign
    rw [none]
    exact (Option.some_ne_none _).symm
  have read : primary registry inner c = called name function (inner.arguments c.advance.advance) := by
    rw [primary_of_name _ _ next, named_of_function found, if_pos opens]
  rw [argumentList, if_neg (by rw [none]; exact (Option.some_ne_none _).symm)]
  cases call : called name function (inner.arguments c.advance.advance) with
  | error fault =>
    rw [call] at read
    rw [sum_of_primary_failure noSign read]
    rfl
  | ok result =>
    obtain ⟨x, c₁⟩ := result
    have closing : c₁.operator? = some .closing := by
      obtain ⟨⟨xs, c₂⟩, step, value⟩ := bind_success call
      dsimp only at value
      split at value
      · cases value
        exact closes xs c₁ step
      · cases value
    have noComma : c₁.operator? ≠ some .comma := by
      rw [closing]
      decide
    rw [call] at read
    rw [sum_of_primary_closing noSign read closing]
    simp only [ok_bind, moreArguments_of_no_comma _ _ noComma, Cursor.expect_of_operator? closing]

/-- Two primitives applied one after the other to what has been read once. -/
theorem called_called {p outer innermost : Primitive} (wrapper : p.wrapper? = some (outer, innermost))
    (xs : List Binary64) {opened : List Bool} {c c' : Cursor} (h : Closed true opened c c') :
    Matches (Same opened)
      (called outer.name outer.function
        (called innermost.name innermost.function (.ok (xs, c)) >>= fun result =>
          .ok ([result.1], result.2.advance)))
      (called p.name p.inDegrees (.ok (xs, c'))) := by
  obtain ⟨f, g, outerUnary, innerUnary, unary⟩ := Primitive.exists_unary_of_wrapper? wrapper
  rw [outerUnary, innerUnary, unary]
  match xs with
  | [] => exact .fault rfl
  | [x] => exact .value ⟨rfl, h.2⟩
  | x :: y :: xs => exact .fault rfl

theorem wrapped_matches {inner around' : Rules} {p outer innermost : Primitive}
    (wrapper : p.wrapper? = some (outer, innermost)) {opened : List Bool} {c c' : Cursor}
    (next : c.next? = some (.name innermost.name)) (opens : c.advance.operator? = some .opening)
    (h : Matches (SameArguments true opened) (inner.arguments c.advance.advance)
      (around'.arguments c')) :
    Matches (Same opened) (called outer.name outer.function (argumentList .standard inner c))
      (called p.name p.inDegrees (around'.arguments c')) := by
  have closes : ∀ xs c₁, inner.arguments c.advance.advance = .ok (xs, c₁) →
      c₁.operator? = some .closing := by
    intro xs c₁ read
    rw [read] at h
    generalize around'.arguments c' = step' at h
    cases h with
    | value h => exact h.2.1
  rw [argumentList_of_call next opens (Registry.standard_function? innermost) closes]
  generalize inner.arguments c.advance.advance = step at h
  generalize around'.arguments c' = step' at h
  cases h with
  | tooLarge kind other => exact .tooLarge kind _
  | fault kind => exact .fault kind
  | @value result result' h =>
    obtain ⟨xs, c₁⟩ := result
    obtain ⟨_, c₂⟩ := result'
    obtain ⟨rfl, closed⟩ := h
    exact called_called wrapper xs closed

/-! ## Levels -/

theorem match_refuse (limit : Nat) {inner' : Rules} (derive' : inner'.Derive) :
    (refuse limit).Match inner' where
  derive := derive_refuse limit
  derive' := derive'
  expression _ := .tooLarge rfl _
  power _ := .tooLarge rfl _
  unary _ := .tooLarge rfl _
  arguments _ := .tooLarge rfl _
  wrapped _ _ _ _ _ _ _ := .tooLarge rfl _

/-- A level matches a level if what nests inside does, and does with one more level in radians. -/
theorem match_around {inner inner' : Rules} (rules : inner.Match inner')
    (deeper : inner.Match (around .ofDegrees inner')) :
    (around .standard inner).Match (around .ofDegrees inner') where
  derive := derive_around .standard rules.derive
  derive' := derive_around .ofDegrees rules.derive'
  expression h := (beside rules _).sum h
  power h := (beside rules _).raised h
  unary h := signed_matches rules h
  arguments h := argumentList_matches rules h
  wrapped wrapper _ _ _ next opens h := wrapped_matches wrapper next opens (deeper.arguments h)

theorem derive_inside (registry : Registry) (limit levels : Nat) :
    (inside registry limit levels).Derive := by
  cases levels with
  | zero => exact derive_refuse limit
  | succ levels => exact derive_nested registry limit levels

/-- The form in degrees may have fewer levels left, for it has used more. -/
theorem match_inside (limit : Nat) {levels levels' : Nat} (fewer : levels ≤ levels') :
    (inside .standard limit levels).Match (inside .ofDegrees limit levels') := by
  induction levels generalizing levels' with
  | zero => exact match_refuse limit (derive_inside .ofDegrees limit levels')
  | succ levels ih =>
    cases levels' with
    | zero => exact absurd fewer (Nat.not_succ_le_zero levels)
    | succ levels' =>
      have rules := ih (Nat.le_of_succ_le_succ fewer)
      have deeper := ih (Nat.le_of_succ_le fewer)
      rw [inside, nested_eq] at deeper
      rw [inside, inside, nested_eq, nested_eq]
      exact match_around rules deeper

end Rules

/-- Whole expressions whose lexemes correspond have the same value or faults of one kind, unless the
one in degrees is found too deep. -/
theorem Tokens.value_matches (limit : Nat) {tokens tokens' : Tokens}
    (h : Wrapped [] tokens.lexemes tokens'.lexemes) :
    Matches (· = ·) (tokens.value .standard limit) (tokens'.value .ofDegrees limit) := by
  have start : Alike [] tokens.start tokens'.start := ⟨rfl, h⟩
  have read := (Rules.beside (Rules.match_inside limit (Nat.le_refl limit)) []).sum start
  exact Tokens.value_matches_of_sum start.atEnd_iff Alike.atEnd_iff read

end Calculator
