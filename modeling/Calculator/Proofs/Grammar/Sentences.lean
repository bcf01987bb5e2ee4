import Calculator.Evaluation
import Calculator.Proofs.Grammar.Reading

/-!
# Sentences and their values

Whatever the rules read has a derivation, so reading a text gives a value exactly for the sentences
of the grammar that have one and nest within the limit; the derivation of a sentence is unique, and a
sentence that is only too deep is refused for that.
-/
namespace Calculator

namespace Rules

/-- Whatever the rules read is derived. -/
structure Derive (rules : Rules) : Prop where
  expression {c c' : Cursor} {x : Binary64} (h : rules.expression c = .ok (x, c')) :
    ∃ t, Derives .expression c t c'
  arguments (name : List Char) {c c' : Cursor} {xs : List Binary64}
    (h : rules.arguments c = .ok (xs, c')) : ∃ t, Derives (.arguments name) c t c'
  power {c c' : Cursor} {x : Binary64} (h : rules.power c = .ok (x, c')) :
    ∃ t, Derives .power c t c'
  unary {c c' : Cursor} {x : Binary64} (h : rules.unary c = .ok (x, c')) :
    ∃ t, Derives .unary c t c'

theorem derive_refuse (limit : Nat) : (refuse limit).Derive where
  expression h := by cases h
  arguments _ _ _ _ h := by cases h
  power h := by cases h
  unary h := by cases h

section Level

variable {registry : Registry} {inner : Rules}

theorem derives_of_primary (nested : inner.Derive) {c c' : Cursor} {x : Binary64}
    (h : primary registry inner c = .ok (x, c')) : ∃ t, Derives .primary c t c' := by
  cases found : c.next? with
  | none =>
    obtain ⟨position, refused⟩ := primary_of_end registry inner found
    rw [refused] at h
    cases h
  | some lexeme =>
    cases lexeme with
    | number numeral =>
      rw [primary_of_number registry inner found] at h
      cases h
      exact ⟨_, .number found⟩
    | name name =>
      rw [primary_of_name registry inner found, named] at h
      split at h
      · split at h
        · rename_i opening
          obtain ⟨⟨values, c₁⟩, read, h⟩ := bind_success h
          obtain ⟨t, arguments⟩ := nested.arguments name read
          dsimp only at h
          split at h
          · cases h
            exact ⟨t, .call found opening arguments⟩
          · cases h
        · cases h
      · split at h
        · split at h
          · cases h
          · rename_i alone
            cases h
            exact ⟨_, .constant found alone⟩
        · cases h
    | operator operator =>
      have symbol := Cursor.operator?_of_next? found
      by_cases opening : operator = .opening
      · subst opening
        rw [primary_of_opening registry inner symbol] at h
        obtain ⟨⟨value, c₁⟩, read, h⟩ := bind_success h
        obtain ⟨c₂, expected, h⟩ := bind_success h
        obtain ⟨closing, rfl⟩ := Cursor.expect_success expected
        obtain ⟨t, expression⟩ := nested.expression read
        cases h
        exact ⟨_, .group symbol expression closing⟩
      · obtain ⟨position, refused⟩ := primary_of_operator registry inner symbol opening
        rw [refused] at h
        cases h

theorem derives_of_signed (nested : inner.Derive) {c c' : Cursor} {x : Binary64}
    (h : signed registry inner c = .ok (x, c')) : ∃ t, Derives .unary c t c' := by
  by_cases symbol : ∃ sign : Sign, c.operator? = some sign.symbol
  · obtain ⟨sign, symbol⟩ := symbol
    rw [signed_of_sign registry inner symbol] at h
    obtain ⟨⟨value, c₁⟩, read, h⟩ := bind_success h
    obtain ⟨t, operand⟩ := nested.unary read
    cases h
    exact ⟨_, .signed symbol operand⟩
  · rw [signed_of_no_sign registry inner (fun sign found => symbol ⟨sign, found⟩)] at h
    obtain ⟨t, primary⟩ := derives_of_primary nested h
    exact ⟨t, .unsigned primary⟩

theorem derives_of_raised (nested : inner.Derive) {c c' : Cursor} {x : Binary64}
    (h : raised registry inner c = .ok (x, c')) : ∃ t, Derives .power c t c' := by
  obtain ⟨⟨base, c₁⟩, read, h⟩ := bind_success h
  obtain ⟨t, unary⟩ := derives_of_signed nested read
  dsimp only at h
  split at h
  · rename_i symbol
    obtain ⟨⟨exponent, c₂⟩, read, h⟩ := bind_success h
    obtain ⟨e, power⟩ := nested.power read
    cases h
    exact ⟨_, .raised unary symbol power⟩
  · cases h
    exact ⟨t, .base unary⟩

theorem derives_of_factors (nested : inner.Derive) {bound : Nat} {c c' : Cursor} {x y : Binary64}
    (h : factors registry inner bound x c = .ok (y, c')) (left : Syntax) :
    ∃ t, Derives (.factors left) c t c' := by
  induction bound generalizing c x left with
  | zero =>
    cases h
    exact ⟨left, .noFactor⟩
  | succ bound ih =>
    rcases c.factor_cases with ⟨link, operator, written, symbol⟩ | start | ⟨noLink, noStart⟩
    · rw [factors_of_link registry inner written symbol] at h
      obtain ⟨⟨right, c₁⟩, read, h⟩ := bind_success h
      obtain ⟨value, joined, h⟩ := bind_success h
      obtain ⟨r, power⟩ := derives_of_raised nested read
      obtain ⟨t, further⟩ := ih h (.product link left r)
      exact ⟨t, .factor written symbol power further⟩
    · rw [factors_of_startsAlone registry inner start] at h
      obtain ⟨⟨right, c₁⟩, read, h⟩ := bind_success h
      obtain ⟨value, joined, h⟩ := bind_success h
      obtain ⟨r, power⟩ := derives_of_raised nested read
      obtain ⟨t, further⟩ := ih h (.product .implicit left r)
      exact ⟨t, .implicitFactor start power further⟩
    · rw [factors_of_neither registry inner noLink noStart] at h
      cases h
      exact ⟨left, .noFactor⟩

theorem derives_of_term (nested : inner.Derive) {c c' : Cursor} {x : Binary64}
    (h : term registry inner c = .ok (x, c')) : ∃ t, Derives .term c t c' := by
  obtain ⟨⟨left, c₁⟩, read, h⟩ := bind_success h
  obtain ⟨first, power⟩ := derives_of_raised nested read
  obtain ⟨t, factors⟩ := derives_of_factors nested h first
  exact ⟨t, .term power factors⟩

theorem derives_of_terms (nested : inner.Derive) {bound : Nat} {c c' : Cursor} {x y : Binary64}
    (h : terms registry inner bound x c = .ok (y, c')) (left : Syntax) :
    ∃ t, Derives (.terms left) c t c' := by
  induction bound generalizing c x left with
  | zero =>
    cases h
    exact ⟨left, .noTerm⟩
  | succ bound ih =>
    by_cases symbol : ∃ sign : Sign, c.operator? = some sign.symbol
    · obtain ⟨sign, symbol⟩ := symbol
      rw [terms_of_sign registry inner symbol] at h
      obtain ⟨⟨right, c₁⟩, read, h⟩ := bind_success h
      obtain ⟨r, term⟩ := derives_of_term nested read
      obtain ⟨t, further⟩ := ih h (.sum sign left r)
      exact ⟨t, .furtherTerm symbol term further⟩
    · rw [terms_of_no_sign registry inner (fun sign found => symbol ⟨sign, found⟩)] at h
      cases h
      exact ⟨left, .noTerm⟩

theorem derives_of_sum (nested : inner.Derive) {c c' : Cursor} {x : Binary64}
    (h : sum registry inner c = .ok (x, c')) : ∃ t, Derives .expression c t c' := by
  obtain ⟨⟨left, c₁⟩, read, h⟩ := bind_success h
  obtain ⟨first, term⟩ := derives_of_term nested read
  obtain ⟨t, terms⟩ := derives_of_terms nested h first
  exact ⟨t, .expression term terms⟩

/-- What has been read takes tokens away from the rest. -/
theorem length_raised (nested : inner.Derive) {c c' : Cursor} {x : Binary64}
    (h : raised registry inner c = .ok (x, c')) : c'.rest.length + 1 ≤ c.rest.length := by
  obtain ⟨t, derived⟩ := derives_of_raised nested h
  exact derived.length_le

theorem length_term (nested : inner.Derive) {c c' : Cursor} {x : Binary64}
    (h : term registry inner c = .ok (x, c')) : c'.rest.length + 1 ≤ c.rest.length := by
  obtain ⟨t, derived⟩ := derives_of_term nested h
  exact derived.length_le

theorem length_sum (nested : inner.Derive) {c c' : Cursor} {x : Binary64}
    (h : sum registry inner c = .ok (x, c')) : c'.rest.length + 1 ≤ c.rest.length := by
  obtain ⟨t, derived⟩ := derives_of_sum nested h
  exact derived.length_le

theorem derives_of_moreArguments (nested : inner.Derive) {bound : Nat} {c c' : Cursor}
    {xs : List Binary64} (h : moreArguments registry inner bound c = .ok (xs, c'))
    (closing : c'.operator? = some .closing) (name : List Char) (given : List Syntax) :
    ∃ t, Derives (.moreArguments name given) c t c'.advance := by
  induction bound generalizing c xs given with
  | zero =>
    cases h
    exact ⟨_, .lastArgument closing⟩
  | succ bound ih =>
    by_cases comma : c.operator? = some .comma
    · rw [moreArguments_of_comma registry inner comma] at h
      obtain ⟨⟨value, c₁⟩, read, h⟩ := bind_success h
      obtain ⟨⟨values, c₂⟩, further, h⟩ := bind_success h
      cases h
      obtain ⟨next, expression⟩ := derives_of_sum nested read
      obtain ⟨t, more⟩ := ih further (given ++ [next])
      exact ⟨t, .nextArgument comma expression more⟩
    · rw [moreArguments_of_no_comma registry inner comma] at h
      cases h
      exact ⟨_, .lastArgument closing⟩

theorem derives_of_argumentList (nested : inner.Derive) {c c' : Cursor} {xs : List Binary64}
    (h : argumentList registry inner c = .ok (xs, c')) (name : List Char) :
    ∃ t, Derives (.arguments name) c t c' := by
  unfold argumentList at h
  split at h
  · rename_i closing
    cases h
    exact ⟨_, .noArguments closing⟩
  · obtain ⟨⟨value, c₁⟩, read, h⟩ := bind_success h
    obtain ⟨⟨values, c₂⟩, further, h⟩ := bind_success h
    obtain ⟨c₃, expected, h⟩ := bind_success h
    obtain ⟨closing, rfl⟩ := Cursor.expect_success expected
    cases h
    obtain ⟨first, expression⟩ := derives_of_sum nested read
    obtain ⟨t, more⟩ := derives_of_moreArguments nested further closing name [first]
    exact ⟨t, .firstArgument expression more⟩

theorem derive_around (registry : Registry) (nested : inner.Derive) :
    (around registry inner).Derive where
  expression h := derives_of_sum nested h
  arguments name _ _ _ h := derives_of_argumentList nested h name
  power h := derives_of_raised nested h
  unary h := derives_of_signed nested h

end Level

theorem derive_nested (registry : Registry) (limit levels : Nat) :
    (nested registry limit levels).Derive := by
  induction levels with
  | zero => exact derive_around registry (derive_refuse limit)
  | succ levels ih => exact derive_around registry ih

end Rules

/-- The place before the first token. -/
def Tokens.start (tokens : Tokens) : Cursor :=
  ⟨false, tokens⟩

/-- The tree is derived from all of the tokens. -/
def Tokens.Sentence (tokens : Tokens) (t : Syntax) : Prop :=
  ∃ c, Derives .expression tokens.start t c ∧ c.AtEnd

/-- Where a sentence starts there is a token. -/
theorem Tokens.Sentence.next? {tokens : Tokens} {t : Syntax} (h : tokens.Sentence t) :
    ∃ lexeme, tokens.start.next? = some lexeme := by
  obtain ⟨c, derived, -⟩ := h
  have shorter := derived.length_le
  cases tokens with
  | finish position => simp [start, length, Category.least] at shorter
  | token lexeme position rest => exact ⟨lexeme, rfl⟩

/-- Tokens have the outcome that their sum is read to, if it ends where they do. -/
theorem Tokens.value_of_sum {tokens : Tokens} {lexeme : Lexeme} {registry : Registry} {limit : Nat}
    {outcome : Except Fault Binary64} {c : Cursor} (next : tokens.start.next? = some lexeme)
    (atEnd : c.AtEnd) (read : Rules.sum registry (Rules.inside registry limit limit) tokens.start =
      outcome.map (·, c)) : tokens.value registry limit = outcome := by
  obtain ⟨position, finished⟩ := Cursor.rest_of_next?_none atEnd
  cases tokens with
  | finish position => cases next
  | token lexeme position rest =>
    unfold value
    rw [Rules.nested_eq]
    simp only [Rules.around]
    rw [← start, read]
    cases outcome with
    | error fault => rfl
    | ok x => simp only [map_success, ok_bind, finished]

/-- A sentence is read as its tree is evaluated. -/
theorem Tokens.Sentence.value_eq {tokens : Tokens} {t : Syntax} (h : tokens.Sentence t)
    (registry : Registry) (limit : Nat) :
    tokens.value registry limit = t.evaluate registry limit limit := by
  obtain ⟨lexeme, next⟩ := h.next?
  obtain ⟨c, derived, atEnd⟩ := h
  have read := derived.reads registry limit (Cursor.endsSum_of_atEnd atEnd) limit
  exact Tokens.value_of_sum next atEnd read

/-- Tokens that are read to a value form a sentence. -/
theorem Tokens.sentence_of_value {tokens : Tokens} {registry : Registry} {limit : Nat}
    {x : Binary64} (h : tokens.value registry limit = .ok x) : ∃ t, tokens.Sentence t := by
  cases tokens with
  | finish position => cases h
  | token lexeme position rest =>
    obtain ⟨⟨value, c⟩, read, h⟩ := bind_success h
    obtain ⟨t, derived⟩ := (Rules.derive_nested registry limit limit).expression read
    refine ⟨t, c, derived, ?_⟩
    dsimp only at h
    split at h
    · rename_i finished
      simp [Cursor.AtEnd, Cursor.next?, finished]
    · cases h

/-- The tree of a sentence is unique. -/
theorem Tokens.Sentence.unique {tokens : Tokens} {t₁ t₂ : Syntax} (h₁ : tokens.Sentence t₁)
    (h₂ : tokens.Sentence t₂) : t₁ = t₂ := by
  obtain ⟨c₁, derived₁, atEnd₁⟩ := h₁
  obtain ⟨c₂, derived₂, atEnd₂⟩ := h₂
  exact (derived₁.unique derived₂ (Cursor.endsSum_of_atEnd atEnd₁)
    (Cursor.endsSum_of_atEnd atEnd₂)).1

/-- Reading accepts exactly the sentences of the grammar with a value that nest within the limit, and
gives that value. A sentence has one tree; if it has a value and only nests too deep, it is refused
as too large. -/
theorem evaluateCanonicalWith_eq_ok_iff (registry : Registry) (text : List Char) :
    (∀ x, evaluateCanonicalWith registry text = .ok x ↔
      ∃ tokens t, Tokens.ofText text = .ok tokens ∧ tokens.Sentence t ∧
        t.value? registry = some x ∧ t.depth ≤ nestingLimit) ∧
    (∀ tokens t₁ t₂, Tokens.ofText text = .ok tokens → tokens.Sentence t₁ → tokens.Sentence t₂ →
      t₁ = t₂) ∧
    (∀ tokens t x, Tokens.ofText text = .ok tokens → tokens.Sentence t →
      t.value? registry = some x → nestingLimit < t.depth →
      evaluateCanonicalWith registry text = .error (.nestedTooDeep nestingLimit)) := by
  refine ⟨fun x => ⟨fun h => ?_, ?_⟩, fun tokens t₁ t₂ _ => Tokens.Sentence.unique, ?_⟩
  · obtain ⟨tokens, lexed, read⟩ := bind_success h
    obtain ⟨t, sentence⟩ := Tokens.sentence_of_value read
    rw [sentence.value_eq, Syntax.evaluate_eq_ok_iff] at read
    exact ⟨tokens, t, lexed, sentence, read⟩
  · rintro ⟨tokens, t, lexed, sentence, value⟩
    rw [evaluateCanonicalWith, lexed, ok_bind, sentence.value_eq, Syntax.evaluate_eq_ok_iff]
    exact value
  · intro tokens t x lexed sentence value tooDeep
    rw [evaluateCanonicalWith, lexed, ok_bind, sentence.value_eq,
      Syntax.evaluate_of_value? registry nestingLimit t value, Syntax.within,
      if_neg (Nat.not_le.2 tooDeep)]

end Calculator
