import Calculator.Proofs.Checked.Places
import Calculator.Proofs.Grammar.Unambiguous

/-!
# No slips

Checked reading follows the rules of the grammar place by place, so it gives what evaluation gives: a
value, or an error that is reported. A look at the table never misses, every number is read, every
name that is called is found and called with the right number of arguments, no handler lets a refusal
of the arithmetic pass, and no loop reaches its bound.
-/
namespace Calculator

theorem Primitive.arity_function (p : Primitive) :
    p.function.arity = Checked.arityOf p.name := by
  cases p <;> rfl

theorem Function.exists_valueAt? {f : Function} {arguments : List Binary64}
    (h : arguments.length = f.arity) : ∃ x, f.valueAt? arguments = some x := by
  cases f with
  | unary f =>
    match arguments, h with
    | [x], _ => exact ⟨_, rfl⟩
  | binary f =>
    match arguments, h with
    | [x, y], _ => exact ⟨_, rfl⟩

theorem Function.valueAt?_eq_none {f : Function} {arguments : List Binary64}
    (h : arguments.length ≠ f.arity) : f.valueAt? arguments = none := by
  cases value : f.valueAt? arguments with
  | none => rfl
  | some x =>
    refine absurd ?_ h
    cases f with
    | unary f =>
      match arguments, value with
      | [x], _ => rfl
    | binary f =>
      match arguments, value with
      | [x, y], _ => rfl

theorem Lexeme.kind_ne_finish (lexeme : Lexeme) : lexeme.kind ≠ .finish := by
  cases lexeme <;> simp [Lexeme.kind]

namespace Checked

/-- Two factors are joined by the text of an operator as the rules join them. -/
theorem multiplicative_eq {link : Link} {operator : Operator}
    (written : link.symbol? = some operator) (x y : Binary64) :
    multiplicative operator.text x y = (Syntax.readLink link x y).mapError Fault.report := by
  cases link with
  | implicit => cases written
  | times =>
    cases written
    rfl
  | divide =>
    cases written
    rw [multiplicative, if_neg (by decide), Syntax.readLink]
    cases zero : y.isZero with
    | true => rfl
    | false => simp [divide_eq x zero]; rfl
  | modulo =>
    cases written
    rw [multiplicative, if_neg (by decide), Syntax.readLink]
    cases zero : y.isZero with
    | true => rfl
    | false => simp [remainder_eq x zero, Operator.text]; rfl

section Places

variable {entries : List Entry} {position : Nat} {c : Cursor}

theorem expect_of_operator? (place : At entries position c) {o : Operator}
    (next : c.operator? = some o) : expect entries position o = .ok (position + 1) := by
  rw [expect, place.atOperator_of next List.mem_cons_self]
  simp [place.pass]

theorem expect_of_other (place : At entries position c) {o : Operator}
    (other : c.operator? ≠ some o) :
    expect entries position o = .error (Fault.expected o c.next?).report := by
  have absent : atOperator entries position [o] = .ok false :=
    place.atOperator_of_not (by simpa using other)
  have found : orElseText c.entry.text Fault.endName =
      (c.next?.map Lexeme.text).getD Fault.endName := by
    cases next : c.next? with
    | none =>
      rw [(At.entry_of_end next).2]
      rfl
    | some lexeme =>
      have legible := place.legible_of_next? next
      rw [(At.entry_of_next? next).2, orElseText, if_neg legible.nonempty]
      rfl
  rw [expect, absent]
  simp only [ok_bind, Bool.false_eq_true, if_false, place.look, found]
  rfl

theorem atOperator_of_no_link (place : At entries position c)
    (noLink : ∀ link : Link, ∀ operator, link.symbol? = some operator →
      c.operator? ≠ some operator) :
    atOperator entries position [.times, .divide, .modulo] = .ok false := by
  apply place.atOperator_of_not
  intro o member
  simp only [List.mem_cons, List.not_mem_nil, or_false] at member
  rcases member with rfl | rfl | rfl
  · exact noLink .times _ rfl
  · exact noLink .divide _ rfl
  · exact noLink .modulo _ rfl

theorem startsFactor_eq (place : At entries position c) (passed : 0 < position) :
    startsFactor entries position = .ok c.startsFactor := by
  obtain ⟨previous, found, closed⟩ := place.behind passed
  have before : lookBehind entries position = .ok previous := by
    cases position with
    | zero => cases passed
    | succ position => rw [lookBehind, look, show entries[position]? = some previous from found]
  rw [startsFactor, place.look]
  simp only [ok_bind, before]
  cases next : c.next? with
  | none =>
    obtain ⟨kind, text⟩ := At.entry_of_end next
    simp [Cursor.startsFactor, next, kind]
  | some lexeme =>
    obtain ⟨kind, text⟩ := At.entry_of_next? next
    rw [kind, text]
    cases lexeme with
    | name word => simp [Cursor.startsFactor, next, Lexeme.kind]
    | number n => simp [Cursor.startsFactor, next, Lexeme.kind, closed]
    | operator o => cases o <;> simp [Cursor.startsFactor, next, Lexeme.kind, Lexeme.text, Operator.text]

end Places

/-- A reader follows rules wherever it starts, and moves on with every success. -/
structure Reader.FollowsRules (entries : List Entry) (reader : Reader) (rules : Rules) : Prop where
  expression {position : Nat} {c : Cursor} (place : At entries position c) :
    Follows entries 1 position (reader.expression position) (rules.expression c)
  arguments {position : Nat} {c : Cursor} (place : At entries position c) :
    Follows entries 1 position (reader.arguments position) (rules.arguments c)
  power {position : Nat} {c : Cursor} (place : At entries position c) :
    Follows entries 1 position (reader.power position) (rules.power c)
  unary {position : Nat} {c : Cursor} (place : At entries position c) :
    Follows entries 1 position (reader.unary position) (rules.unary c)

theorem Reader.refuse_follows (entries : List Entry) (limit : Nat) :
    (Reader.refuse limit).FollowsRules entries (Rules.refuse limit) where
  expression _ := Follows.error
  arguments _ := Follows.error
  power _ := Follows.error
  unary _ := Follows.error

section Level

variable {entries : List Entry} {inner : Reader} {rules : Rules}
  (nested : inner.FollowsRules entries rules) {position : Nat} {c : Cursor}

include nested

theorem named_follows (place : At entries position c) (name : List Char) :
    Follows entries 0 position (Reader.named entries inner name position)
      (Rules.named .standard rules name c) := by
  have functions : Registry.standard.function? name =
      (Primitive.ofName? name).map Primitive.function := rfl
  have constants : Registry.standard.constant? name = nonFinite? name := rfl
  rw [Reader.named, Rules.named, functions, constants, place.atOperator_single]
  cases found : Primitive.ofName? name with
  | some p =>
    simp only [Option.isSome_some, if_true, Option.map_some, ok_bind, decide_eq_true_eq]
    by_cases opening : c.operator? = some .opening
    · have next := Cursor.next?_of_operator? opening
      rw [if_pos opening, if_pos opening, place.pass, ok_bind]
      refine (nested.arguments (place.advance next)).bind ?_
      intro arguments next c passed place
      have arity : p.function.arity = arityOf name := by
        rw [p.arity_function, Primitive.name_of_ofName? found]
      by_cases enough : arguments.length = arityOf name
      · obtain ⟨x, value⟩ := Function.exists_valueAt? (enough.trans arity.symm)
        have called : callNamed name arguments = .ok x := by
          rw [callNamed, found]
          exact Primitive.checkedCall_eq value
        simp only [value, called, enough, ne_eq, not_true_eq_false, if_false]
        exact .ok place (by omega)
      · have missing := Function.valueAt?_eq_none (enough ∘ (·.trans arity))
        simp only [missing, ne_eq, enough, not_false_eq_true, if_true, arity]
        exact .error
    · rw [if_neg opening, if_neg opening]
      exact .error
  | none =>
    simp only [Option.isSome_none, Bool.false_eq_true, if_false, Option.map_none]
    cases constant : nonFinite? name with
    | some x =>
      simp only [Option.isSome_some, if_true, ok_bind, decide_eq_true_eq]
      by_cases opening : c.operator? = some .opening
      · rw [if_pos opening, if_pos opening]
        exact .error
      · have value : constantNamed name = .ok x := by rw [constantNamed, constant]
        rw [if_neg opening, if_neg opening, value]
        exact .ok place (Nat.le_refl _)
    | none =>
      simp only [Option.isSome_none, Bool.false_eq_true, if_false]
      exact .error

theorem primary_follows (place : At entries position c) :
    Follows entries 1 position (Reader.primary entries inner position)
      (Rules.primary .standard rules c) := by
  rw [Reader.primary, place.pass, ok_bind]
  cases rest : c.rest with
  | finish q =>
    have entry : c.entry = ⟨.finish, [], q⟩ := by rw [Cursor.entry, rest]
    rw [Rules.primary, rest, entry]
    exact rfl
  | token lexeme q further =>
    have entry : c.entry = ⟨lexeme.kind, lexeme.text, q⟩ := by rw [Cursor.entry, rest]
    have next : c.next? = some lexeme := by rw [Cursor.next?, rest]
    have behind := place.advance next
    rw [Rules.primary, rest, entry]
    cases lexeme with
    | number n =>
      have value : readNumber (Lexeme.number n).text = .ok n.value := readNumber_text n
      simp only [Lexeme.kind, if_true, value]
      exact .ok behind (Nat.le_refl _)
    | name word =>
      have followed := named_follows nested behind word
      simp only [Lexeme.kind, reduceCtorEq, if_false, false_and, if_true]
      exact followed.mono (by omega)
    | operator o =>
      by_cases opening : o = .opening
      · subst opening
        simp only [Lexeme.kind, Lexeme.text, reduceCtorEq, if_false, true_and, if_true]
        refine (nested.expression behind).bind ?_
        intro x next c passed place
        by_cases closing : c.operator? = some .closing
        · have last := place.advance (Cursor.next?_of_operator? closing)
          simp only [expect_of_operator? place closing, Cursor.expect_of_operator? closing, ok_bind]
          exact .ok last (by omega)
        · have refused : c.expect .closing = .error (.expected .closing c.next?) := if_neg closing
          simp only [expect_of_other place closing, refused]
          exact .error
      · have text : o.text ≠ Operator.opening.text := fun same =>
          opening (Operator.text_injective same)
        simp only [Lexeme.kind, Lexeme.text, reduceCtorEq, if_false, text, and_false]
        cases o with
        | opening => exact absurd rfl opening
        | _ => exact rfl

theorem signed_follows (place : At entries position c) :
    Follows entries 1 position (Reader.signed entries inner position)
      (Rules.signed .standard rules c) := by
  by_cases symbol : ∃ sign : Sign, c.operator? = some sign.symbol
  · obtain ⟨sign, symbol⟩ := symbol
    have next := Cursor.next?_of_operator? symbol
    have listed : sign.symbol ∈ [Operator.minus, .plus] := by cases sign <;> decide
    rw [Reader.signed, place.atOperator_of symbol listed, Rules.signed_of_sign _ _ symbol]
    simp only [ok_bind, if_true, place.pass]
    refine (nested.unary (place.advance next)).bind ?_
    intro x next' c' passed place'
    have text : c.entry.text = sign.symbol.text := (At.entry_of_next? next).2
    have value : (if c.entry.text = Operator.minus.text then x.neg else x) = sign.applyTo x := by
      rw [text]
      cases sign <;> rfl
    simp only [value]
    exact .ok place' (by omega)
  · have absent : ∀ sign : Sign, c.operator? ≠ some sign.symbol := fun sign found =>
      symbol ⟨sign, found⟩
    have noSign : atOperator entries position [.minus, .plus] = .ok false := by
      apply place.atOperator_of_not
      intro o member
      simp only [List.mem_cons, List.not_mem_nil, or_false] at member
      rcases member with rfl | rfl
      · exact absent .negative
      · exact absent .positive
    rw [Reader.signed, noSign, Rules.signed_of_no_sign _ _ absent]
    exact primary_follows nested place

theorem raised_follows (place : At entries position c) :
    Follows entries 1 position (Reader.raised entries inner position)
      (Rules.raised .standard rules c) := by
  refine (signed_follows nested place).bind ?_
  intro base next c passed place
  simp only [place.atOperator_single, ok_bind, decide_eq_true_eq]
  by_cases symbol : c.operator? = some .power
  · have behind := place.advance (Cursor.next?_of_operator? symbol)
    simp only [symbol, if_true, place.pass, ok_bind]
    refine (nested.power behind).bind ?_
    intro exponent next c passed place
    simp only [power_eq]
    exact .ok place (by omega)
  · simp only [symbol, if_false]
    exact .ok place (by omega)

theorem factors_follow (bound fuel : Nat) (left : Binary64) (place : At entries position c)
    (passed : 0 < position) (enough : c.rest.length ≤ bound) (ends : c.rest.length < fuel) :
    Follows entries 0 position (Reader.factors entries inner fuel left position)
      (Rules.factors .standard rules bound left c) := by
  induction fuel generalizing bound left position c with
  | zero => exact absurd ends (Nat.not_lt_zero _)
  | succ fuel ih =>
    -- a factor has been read, and fewer tokens are left for the further ones
    have further : ∀ {value : Binary64} {next : Nat} {c' : Cursor} {bound : Nat},
        c.rest.length ≤ bound + 1 → At entries next c' → position < next →
        Follows entries 0 position (Reader.factors entries inner fuel value next)
          (Rules.factors .standard rules bound value c') := by
      intro value next c' bound enough place' moved
      have before := place.length_rest
      have after := place'.length_rest
      exact (ih bound value place' (by omega) (by omega) (by omega)).mono (by omega)
    rcases c.factor_cases with ⟨link, operator, written, symbol⟩ | start | ⟨noLink, noStart⟩
    · have next := Cursor.next?_of_operator? symbol
      have shorter := Cursor.length_advance next
      have listed : operator ∈ [Operator.times, .divide, .modulo] := by
        cases link <;> cases written <;> decide
      have text : c.entry.text = operator.text := (At.entry_of_next? next).2
      obtain ⟨bound, rfl⟩ : ∃ fewer, bound = fewer + 1 := ⟨bound - 1, by omega⟩
      rw [Reader.factors, place.atOperator_of symbol listed,
        Rules.factors_of_link _ _ written symbol]
      simp only [ok_bind, if_true, place.pass, text, multiplicative_eq written]
      refine (raised_follows nested (place.advance next)).bind ?_
      intro right next c' moved place'
      cases joined : Syntax.readLink link left right with
      | error fault => exact .error
      | ok value => exact further enough place' (by omega)
    · have noLink := fun (link : Link) operator (written : link.symbol? = some operator) found =>
        not_startsAlone_of_link written found start
      obtain ⟨lexeme, next⟩ := start.next?
      have shorter := Cursor.length_advance next
      obtain ⟨bound, rfl⟩ : ∃ fewer, bound = fewer + 1 := ⟨bound - 1, by omega⟩
      have starts : c.startsFactor = true := (Cursor.startsFactor_iff c).2 start
      rw [Reader.factors, atOperator_of_no_link place noLink, Rules.factors_of_startsAlone _ _ start]
      simp only [ok_bind, Bool.false_eq_true, if_false, startsFactor_eq place passed, starts, if_true]
      refine (raised_follows nested place).bind ?_
      intro right next c' moved place'
      exact further enough place' (by omega)
    · have still : c.startsFactor = false := by
        rw [← Bool.not_eq_true, Cursor.startsFactor_iff]
        exact noStart
      rw [Reader.factors, atOperator_of_no_link place noLink, Rules.factors_of_neither _ _ noLink noStart]
      simp only [ok_bind, Bool.false_eq_true, if_false, startsFactor_eq place passed, still]
      exact .ok place (Nat.le_refl _)

theorem term_follows (place : At entries position c) :
    Follows entries 1 position (Reader.term entries inner position)
      (Rules.term .standard rules c) := by
  refine (raised_follows nested place).bind ?_
  intro left next c' moved place'
  have length := place'.length_rest
  exact (factors_follow nested _ _ left place' (by omega) (Nat.le_refl _) (by omega)).mono
    (by omega)

theorem terms_follow (bound fuel : Nat) (left : Binary64) (place : At entries position c)
    (enough : c.rest.length ≤ bound) (ends : c.rest.length < fuel) :
    Follows entries 0 position (Reader.terms entries inner fuel left position)
      (Rules.terms .standard rules bound left c) := by
  induction fuel generalizing bound left position c with
  | zero => exact absurd ends (Nat.not_lt_zero _)
  | succ fuel ih =>
    by_cases symbol : ∃ sign : Sign, c.operator? = some sign.symbol
    · obtain ⟨sign, symbol⟩ := symbol
      have next := Cursor.next?_of_operator? symbol
      have shorter := Cursor.length_advance next
      have listed : sign.symbol ∈ [Operator.plus, .minus] := by cases sign <;> decide
      have text : c.entry.text = sign.symbol.text := (At.entry_of_next? next).2
      have value : ∀ right, (if c.entry.text = Operator.plus.text then left + right
          else left - right) = sign.combine left right := by
        intro right
        rw [text]
        cases sign <;> rfl
      obtain ⟨bound, rfl⟩ : ∃ fewer, bound = fewer + 1 := ⟨bound - 1, by omega⟩
      rw [Reader.terms, place.atOperator_of symbol listed, Rules.terms_of_sign _ _ symbol]
      simp only [ok_bind, if_true, place.pass, value]
      refine (term_follows nested (place.advance next)).bind ?_
      intro right next c' moved place'
      have before := place.length_rest
      have after := place'.length_rest
      exact (ih bound _ place' (by omega) (by omega)).mono (by omega)
    · have absent : ∀ sign : Sign, c.operator? ≠ some sign.symbol := fun sign found =>
        symbol ⟨sign, found⟩
      have noSign : atOperator entries position [.plus, .minus] = .ok false := by
        apply place.atOperator_of_not
        intro o member
        simp only [List.mem_cons, List.not_mem_nil, or_false] at member
        rcases member with rfl | rfl
        · exact absent .positive
        · exact absent .negative
      rw [Reader.terms, noSign, Rules.terms_of_no_sign _ _ absent]
      exact .ok place (Nat.le_refl _)

theorem sum_follows (place : At entries position c) :
    Follows entries 1 position (Reader.sum entries inner position)
      (Rules.sum .standard rules c) := by
  refine (term_follows nested place).bind ?_
  intro left next c' moved place'
  have length := place'.length_rest
  exact (terms_follow nested _ _ left place' (Nat.le_refl _) (by omega)).mono (by omega)

theorem moreArguments_follow (bound fuel : Nat) (place : At entries position c)
    (enough : c.rest.length ≤ bound) (ends : c.rest.length < fuel) :
    Follows entries 0 position (Reader.moreArguments entries inner fuel position)
      (Rules.moreArguments .standard rules bound c) := by
  induction fuel generalizing bound position c with
  | zero => exact absurd ends (Nat.not_lt_zero _)
  | succ fuel ih =>
    by_cases comma : c.operator? = some .comma
    · have next := Cursor.next?_of_operator? comma
      have shorter := Cursor.length_advance next
      obtain ⟨bound, rfl⟩ : ∃ fewer, bound = fewer + 1 := ⟨bound - 1, by omega⟩
      rw [Reader.moreArguments, place.atOperator_of comma List.mem_cons_self,
        Rules.moreArguments_of_comma _ _ comma]
      simp only [ok_bind, if_true, place.pass]
      refine (sum_follows nested (place.advance next)).bind ?_
      intro value next c' moved place'
      have before := place.length_rest
      have after := place'.length_rest
      refine (ih bound place' (by omega) (by omega)).bind ?_
      intro values last c'' further place''
      exact .ok place'' (by omega)
    · have absent : atOperator entries position [.comma] = .ok false :=
        place.atOperator_of_not (by simpa using comma)
      rw [Reader.moreArguments, absent, Rules.moreArguments_of_no_comma _ _ comma]
      exact .ok place (Nat.le_refl _)

theorem argumentList_follows (place : At entries position c) :
    Follows entries 1 position (Reader.argumentList entries inner position)
      (Rules.argumentList .standard rules c) := by
  rw [Reader.argumentList, Rules.argumentList, place.atOperator_single, ok_bind]
  simp only [decide_eq_true_eq]
  by_cases closing : c.operator? = some .closing
  · rw [if_pos closing, if_pos closing, place.pass]
    exact .ok (place.advance (Cursor.next?_of_operator? closing)) (Nat.le_refl _)
  · rw [if_neg closing, if_neg closing]
    refine (sum_follows nested place).bind ?_
    intro value next c' moved place'
    have length := place'.length_rest
    refine (moreArguments_follow nested _ entries.length place' (Nat.le_refl _) (by omega)).bind ?_
    intro values last c'' further place''
    by_cases closing : c''.operator? = some .closing
    · have behind := place''.advance (Cursor.next?_of_operator? closing)
      simp only [expect_of_operator? place'' closing, Cursor.expect_of_operator? closing, ok_bind]
      exact .ok behind (by omega)
    · have refused : c''.expect .closing = .error (.expected .closing c''.next?) := if_neg closing
      simp only [expect_of_other place'' closing, refused]
      exact .error

theorem around_follows : (Reader.around entries inner).FollowsRules entries
    (Rules.around .standard rules) where
  expression place := sum_follows nested place
  arguments place := argumentList_follows nested place
  power place := raised_follows nested place
  unary place := signed_follows nested place

end Level

theorem nested_follows (entries : List Entry) (limit depth : Nat) :
    (Reader.nested entries limit depth).FollowsRules entries
      (Rules.nested .standard limit depth) := by
  induction depth with
  | zero => exact around_follows (Reader.refuse_follows entries limit)
  | succ depth ih => exact around_follows ih

/-- The whole table has the value of the tokens. -/
theorem tableValue_entries (limit : Nat) {tokens : Tokens}
    (legible : ∀ lexeme ∈ tokens.lexemes, Legible lexeme) :
    tableValue tokens.entries limit =
      (tokens.value .standard limit).mapError Fault.report := by
  have start : At tokens.entries 0 ⟨false, tokens⟩ :=
    ⟨rfl, fun passed => absurd passed (Nat.lt_irrefl 0), legible⟩
  cases tokens with
  | finish position => rfl
  | token lexeme position rest =>
    have followed := (nested_follows _ limit limit).expression start
    rw [tableValue, start.look]
    simp only [ok_bind, Cursor.entry, lexeme.kind_ne_finish, if_false, Tokens.value]
    cases run : (Rules.nested .standard limit limit).expression
        ⟨false, .token lexeme position rest⟩ with
    | error fault =>
      rw [run] at followed
      rw [show (Reader.nested _ limit limit).expression 0 = _ from followed]
      rfl
    | ok result =>
      obtain ⟨x, c⟩ := result
      rw [run] at followed
      obtain ⟨next, same, -, place⟩ := followed
      rw [same]
      simp only [ok_bind, place.look]
      cases rest : c.rest with
      | finish q =>
        have entry : c.entry = ⟨.finish, [], q⟩ := by rw [Cursor.entry, rest]
        rw [entry]
        rfl
      | token last q further =>
        have entry : c.entry = ⟨last.kind, last.text, q⟩ := by rw [Cursor.entry, rest]
        rw [entry]
        simp only [last.kind_ne_finish, if_false]
        rfl

/-- Checked reading of a canonical text gives what evaluation gives. -/
theorem evaluateCanonical_checked (text : List Char) :
    evaluateCanonical text = (Calculator.evaluateCanonical text).mapError Fault.report := by
  rw [evaluateCanonical, Calculator.evaluateCanonical, evaluateCanonicalWith]
  cases read : Tokens.ofText text with
  | error fault => rfl
  | ok tokens => exact tableValue_entries nestingLimit (Tokens.legible_of_read read)

/-- Checked reading of an expression gives what evaluation gives. -/
theorem evaluate_checked (expression : List Char) (mode : AngleMode) (answer : Binary64) :
    evaluate expression mode answer =
      (Calculator.evaluate expression mode answer).mapError Fault.report := by
  rw [evaluate, Calculator.evaluate, evaluateWith]
  cases canonicalize expression mode answer with
  | error fault => rfl
  | ok text => exact evaluateCanonical_checked text

/-- The text of every number in a table is read as a number. -/
theorem readNumber_entry (tokens : Tokens) {entry : Entry} (member : entry ∈ tokens.entries)
    (number : entry.kind = .number) : ∃ x, readNumber entry.text = .ok x := by
  induction tokens with
  | finish position =>
    rw [Tokens.entries, List.mem_singleton] at member
    rw [member] at number
    cases number
  | token lexeme position rest ih =>
    rcases List.mem_cons.1 member with rfl | member
    · cases lexeme with
      | number n => exact ⟨_, readNumber_text n⟩
      | name word => cases number
      | operator o => cases number
    · exact ih member

/-- The kinds of error that an evaluation reports. -/
def reportedKinds : List ErrorKind :=
  [.malformed, .unknownIdentifier, .operandType, .divisionByZero, .tooLarge]

/-- A value, or an error of one of these kinds, and no slip. -/
inductive Reported : Except Stop Binary64 → Prop
  | value (x : Binary64) : Reported (.ok x)
  | error (error : CalculationError) (kind : error.kind ∈ reportedKinds) :
      Reported (.error (.reported error))

theorem reported_mapError (result : Except Fault Binary64) :
    Reported (result.mapError Fault.report) := by
  cases result with
  | ok x => exact .value x
  | error fault =>
    refine .error fault.toError ?_
    have kind : fault.toError.kind = fault.kind := rfl
    rw [kind]
    cases fault <;> simp [Fault.kind, reportedKinds]

/-- Every text, in every angle mode and with every last answer, gives a value or an error of one of
five kinds, and so does every canonical text: with every look-up, every operation of the machine and
every loop checked, nothing else is ever reached, and what is reached is what evaluation gives. Every
number of a text is read as a number. -/
theorem reported_evaluate (text : List Char) (mode : AngleMode) (answer : Binary64) :
    Reported (evaluate text mode answer) ∧
    evaluate text mode answer =
      (Calculator.evaluate text mode answer).mapError Fault.report ∧
    Reported (evaluateCanonical text) ∧
    evaluateCanonical text = (Calculator.evaluateCanonical text).mapError Fault.report ∧
    ∀ tokens, Tokens.ofText text = .ok tokens → ∀ entry ∈ tokens.entries, entry.kind = .number →
      ∃ x, readNumber entry.text = .ok x := by
  have expression := evaluate_checked text mode answer
  have canonical := evaluateCanonical_checked text
  refine ⟨?_, expression, ?_, canonical, fun tokens _ entry => readNumber_entry tokens⟩
  · rw [expression]
    exact reported_mapError _
  · rw [canonical]
    exact reported_mapError _

end Checked

end Calculator
