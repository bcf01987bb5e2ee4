import Calculator.Proofs.Grammar.Height
import Calculator.Proofs.Grammar.Sentences

/-!
# Activations answer as the rules read

The rules are bounded twice: nested operands by levels that are used up, and loops by the number of
tokens that are left. The machine has neither, and still each activation answers with what the rule
of its procedure gives, at the place where the rule ends, or everything ends with the fault of the
rule. So the machine comes to an end on all tokens.
-/
namespace Calculator

open Rules

theorem Cursor.length_advance_le (c : Cursor) : c.advance.rest.length ≤ c.rest.length := by
  unfold advance
  split
  · exact Nat.le_refl _
  · rename_i found
    rw [found]
    exact Nat.le_succ _

/-- Where no token is left, none comes next. -/
theorem Cursor.next?_of_length_le_zero {c : Cursor} (h : c.rest.length ≤ 0) : c.next? = none := by
  unfold next?
  split
  · rfl
  · rename_i found
    rw [found] at h
    exact absurd h (Nat.not_succ_le_zero _)

/-- From the state `s` a result is passed on to the state `goal`, or everything ends with the fault.
What happens behind `goal` is left open, so that results can be put together as the rules are. -/
def Machine.Gives {α : Type} (registry : Registry) (limit : Nat) (goal : α → Machine)
    (s : Machine) : Except Fault α → Prop
  | .ok x => ∃ moves, s.run registry limit moves = goal x
  | .error fault => ∃ moves, (s.run registry limit moves).outcome? = some (.error fault)

/-- A number is the answer to the activations that wait. -/
def Machine.answering (depth : Nat) (waiting : List Frame) (result : Binary64 × Cursor) : Machine :=
  ⟨result.2, depth, waiting, .answer (.value result.1)⟩

/-- Arguments are the answer to the activations that wait. -/
def Machine.listing (depth : Nat) (waiting : List Frame) (result : List Binary64 × Cursor) :
    Machine :=
  ⟨result.2, depth, waiting, .answer (.values result.1)⟩

namespace Machine.Gives

variable {α β : Type} {registry : Registry} {limit depth : Nat} {waiting : List Frame} {c : Cursor}
  {goal : α → Machine}

theorem of_eq {s : Machine} {x : α} (reached : s = goal x) : Gives registry limit goal s (.ok x) :=
  ⟨0, reached⟩

theorem here (x : α) : Gives registry limit goal (goal x) (.ok x) :=
  of_eq rfl

theorem fault (fault : Fault) (c : Cursor) :
    Gives registry limit goal ⟨c, 0, [], .fault fault⟩ (.error fault) :=
  ⟨0, rfl⟩

theorem after {s : Machine} {outcome : Except Fault α} (moves : Nat)
    (h : Gives registry limit goal (s.run registry limit moves) outcome) :
    Gives registry limit goal s outcome := by
  cases outcome with
  | ok x =>
    obtain ⟨further, reached⟩ := h
    exact ⟨moves + further, by rw [run_add, reached]⟩
  | error fault =>
    obtain ⟨further, reached⟩ := h
    exact ⟨moves + further, by rw [run_add, reached]⟩

/-- What follows a step of the rules goes on from where the step has led. -/
theorem bind {s : Machine} {middle : β → Machine} {step : Except Fault β}
    {next : β → Except Fault α} (first : Gives registry limit middle s step)
    (further : ∀ x, step = .ok x → Gives registry limit goal (middle x) (next x)) :
    Gives registry limit goal s (step >>= next) := by
  cases step with
  | error fault => exact first
  | ok x =>
    obtain ⟨moves, reached⟩ := first
    refine after moves ?_
    rw [reached]
    exact further x rfl

theorem enter {procedure : Procedure} {outcome : Except Fault α}
    (h : Gives registry limit goal ((procedure.start registry c).perform limit depth waiting c)
      outcome) :
    Gives registry limit goal ⟨c, depth, waiting, .enter procedure⟩ outcome :=
  after 1 h

/-- The caller goes on, on the level on which it has called. -/
theorem resume {frame : Frame} {answer : Answer} {outcome : Except Fault α} {inside : Nat}
    (counted : inside = depth + frame.nests.toNat)
    (h : Gives registry limit goal ((frame.resume c answer).perform limit depth waiting c)
      outcome) :
    Gives registry limit goal ⟨c, inside, frame :: waiting, .answer answer⟩ outcome := by
  refine after 1 ?_
  have moved : Machine.run registry limit 1 ⟨c, inside, frame :: waiting, .answer answer⟩ =
      (frame.resume c answer).perform limit (inside - frame.nests.toNat) waiting c := rfl
  rw [moved, counted, Nat.add_sub_cancel]
  exact h

/-- A call that nests is made below the limit. -/
theorem admitted {frame : Frame} {outcome : Except Fault α} (nests : frame.nests = true)
    (deeper : depth < limit)
    (h : Gives registry limit goal ⟨c, depth + 1, frame :: waiting, .enter frame.callee⟩ outcome) :
    Gives registry limit goal (Effect.perform limit depth waiting c (.call frame)) outcome := by
  have called : Effect.perform limit depth waiting c (.call frame) =
      ⟨c, depth + 1, frame :: waiting, .enter frame.callee⟩ := by
    simp [Effect.perform, nests, Nat.not_lt.2 (Nat.succ_le_of_lt deeper)]
  rw [called]
  exact h

/-- It is refused at the limit. -/
theorem refused {frame : Frame} (nests : frame.nests = true) (full : depth = limit) :
    Gives registry limit goal (Effect.perform limit depth waiting c (.call frame))
      (.error (.nestedTooDeep limit)) := by
  have ended : Effect.perform limit depth waiting c (.call frame) =
      ⟨c, 0, [], .fault (.nestedTooDeep limit)⟩ := by
    simp [Effect.perform, nests, full]
  rw [ended]
  exact fault _ _

/-- The caller goes on with the number that it is given. -/
theorem called {s : Machine} {frame : Frame} {inside : Nat}
    {step : Except Fault (Binary64 × Cursor)} {next : Binary64 × Cursor → Except Fault α}
    (answered : Gives registry limit (answering inside (frame :: waiting)) s step)
    (counted : inside = depth + frame.nests.toNat)
    (further : ∀ x c', step = .ok (x, c') →
      Gives registry limit goal ((frame.resume c' (.value x)).perform limit depth waiting c')
        (next (x, c'))) :
    Gives registry limit goal s (step >>= next) :=
  answered.bind fun result read => resume counted (further result.1 result.2 read)

/-- The caller hands the number on that it is given. -/
theorem handedOn {s : Machine} {frame : Frame} {inside : Nat}
    {step : Except Fault (Binary64 × Cursor)}
    (answered : Gives registry limit (answering inside (frame :: waiting)) s step)
    (counted : inside = depth + frame.nests.toNat)
    (same : ∀ x c', (frame.resume c' (.value x)).perform limit depth waiting c' =
      answering depth waiting (x, c')) :
    Gives registry limit (answering depth waiting) s step := by
  rw [← bind_pure step]
  refine answered.called counted fun x c' _ => ?_
  rw [same]
  exact here (x, c')

theorem map {s : Machine} {f : β → α} {step : Except Fault β}
    (h : Gives registry limit (fun x => goal (f x)) s step) :
    Gives registry limit goal s (step.map f) := by
  cases step with
  | error fault => exact h
  | ok x => exact h

end Machine.Gives

open Machine

/-- From this depth on, the calls that nest give what the rules for nested operands read. -/
structure Rules.Nested (registry : Registry) (limit depth : Nat) (inner : Rules) : Prop where
  derive : inner.Derive
  expression (waiting : List Frame) (c : Cursor) :
    Gives registry limit (answering (depth + 1) (.group :: waiting))
      (Effect.perform limit depth waiting c (.call .group)) (inner.expression c)
  arguments (waiting : List Frame) (name : List Char) (function : Function) (c : Cursor) :
    Gives registry limit (listing (depth + 1) (.call name function :: waiting))
      (Effect.perform limit depth waiting c (.call (.call name function))) (inner.arguments c)
  power (waiting : List Frame) (base : Binary64) (c : Cursor) :
    Gives registry limit (answering (depth + 1) (.exponent base :: waiting))
      (Effect.perform limit depth waiting c (.call (.exponent base))) (inner.power c)
  unary (waiting : List Frame) (sign : Operator) (c : Cursor) :
    Gives registry limit (answering (depth + 1) (.signed sign :: waiting))
      (Effect.perform limit depth waiting c (.call (.signed sign))) (inner.unary c)

namespace Rules.Nested

variable {registry : Registry} {limit depth : Nat} {inner : Rules}

theorem named (nested : Nested registry limit depth inner) (waiting : List Frame)
    (text : List Char) (c : Cursor) :
    Gives registry limit (answering depth waiting) ⟨c, depth, waiting, .enter (.name text)⟩
      (Rules.named registry inner text c) := by
  refine .enter ?_
  rw [Procedure.start, Rules.named]
  cases registry.function? text with
  | some function =>
    by_cases opening : c.operator? = some .opening
    · simp only [if_pos opening]
      refine (nested.arguments waiting text function c.advance).bind ?_
      rintro ⟨xs, c'⟩ -
      refine .resume rfl ?_
      simp only [Frame.resume]
      cases function.valueAt? xs with
      | some value => exact .here (value, c')
      | none => exact .fault _ _
    · simp only [if_neg opening]
      exact .fault _ _
  | none =>
    cases registry.constant? text with
    | some value =>
      by_cases opening : c.operator? = some .opening
      · simp only [if_pos opening]
        exact .fault _ _
      · simp only [if_neg opening]
        exact .here (value, c)
    | none => exact .fault _ _

theorem primary (nested : Nested registry limit depth inner) (waiting : List Frame) (c : Cursor) :
    Gives registry limit (answering depth waiting) ⟨c, depth, waiting, .enter .primary⟩
      (Rules.primary registry inner c) := by
  refine .enter ?_
  rw [Procedure.start, Rules.primary]
  cases c.rest with
  | finish position => exact .fault _ _
  | token lexeme position rest =>
    cases lexeme with
    | number numeral => exact .here (numeral.value, c.advance)
    | name text =>
      refine .handedOn (nested.named (.named text :: waiting) text c.advance) rfl ?_
      exact fun x c' => rfl
    | operator operator =>
      cases operator with
      | opening =>
        refine (nested.expression waiting c.advance).called rfl fun x c' _ => ?_
        simp only [Frame.resume, Cursor.expect]
        by_cases closing : c'.operator? = some .closing
        · simp only [if_pos closing]
          exact .here (x, c'.advance)
        · simp only [if_neg closing]
          exact .fault _ _
      | _ => exact .fault _ _

theorem signed (nested : Nested registry limit depth inner) (waiting : List Frame) (c : Cursor) :
    Gives registry limit (answering depth waiting) ⟨c, depth, waiting, .enter .unary⟩
      (Rules.signed registry inner c) := by
  have unsigned := (nested.primary (.unsigned :: waiting) c).handedOn rfl fun x c' => rfl
  refine .enter ?_
  rw [Procedure.start, Rules.signed]
  cases c.operator? with
  | none => exact unsigned
  | some operator =>
    cases operator with
    | minus =>
      exact (nested.unary waiting .minus c.advance).called rfl fun x c' _ => .here (x.neg, c')
    | plus => exact (nested.unary waiting .plus c.advance).handedOn rfl fun x c' => rfl
    | _ => exact unsigned

theorem raised (nested : Nested registry limit depth inner) (waiting : List Frame) (c : Cursor) :
    Gives registry limit (answering depth waiting) ⟨c, depth, waiting, .enter .power⟩
      (Rules.raised registry inner c) := by
  refine .enter ?_
  rw [Rules.raised]
  refine (nested.signed (.base :: waiting) c).called rfl fun base c₁ _ => ?_
  simp only [Frame.resume]
  by_cases symbol : c₁.operator? = some .power
  · simp only [if_pos symbol]
    exact (nested.power waiting base c₁.advance).called rfl fun exponent c' _ =>
      .here (base.power exponent, c')
  · simp only [if_neg symbol]
    exact .here (base, c₁)

/-- There are as many rounds left as there are tokens, and every factor takes one away. -/
theorem factors (nested : Nested registry limit depth inner) (waiting : List Frame) {bound : Nat}
    (left : Binary64) {c : Cursor} (enough : c.rest.length ≤ bound) :
    Gives registry limit (answering depth waiting)
      ((Move.afterFactor left c).perform limit depth waiting c)
      (Rules.factors registry inner bound left c) := by
  induction bound generalizing left c with
  | zero =>
    have next := Cursor.next?_of_length_le_zero enough
    rw [Move.afterFactor, Cursor.operator?_of_next?_none next, Cursor.startsFactor, next]
    exact .here (left, c)
  | succ bound ih =>
    rw [Move.afterFactor, Rules.factors]
    cases joined : c.operator?.filter isMultiplicative with
    | some operator =>
      refine (nested.raised (.nextFactor left operator :: waiting) c.advance).called rfl
        fun right c' read => ?_
      simp only [Frame.resume]
      cases multiplicative operator left right with
      | error fault => exact .fault _ _
      | ok value =>
        have shorter := length_raised nested.derive read
        have advanced := c.length_advance_le
        exact ih value (by omega)
    | none =>
      by_cases start : c.startsFactor
      · simp only [start, if_true]
        refine (nested.raised (.implicitFactor left :: waiting) c).called rfl
          fun right c' read => ?_
        have shorter := length_raised nested.derive read
        exact ih (left * right) (by omega)
      · simp only [start]
        exact .here (left, c)

theorem term (nested : Nested registry limit depth inner) (waiting : List Frame) (c : Cursor) :
    Gives registry limit (answering depth waiting) ⟨c, depth, waiting, .enter .term⟩
      (Rules.term registry inner c) :=
  .enter ((nested.raised (.firstFactor :: waiting) c).called rfl fun left _ _ =>
    nested.factors waiting left (Nat.le_refl _))

theorem terms (nested : Nested registry limit depth inner) (waiting : List Frame) {bound : Nat}
    (left : Binary64) {c : Cursor} (enough : c.rest.length ≤ bound) :
    Gives registry limit (answering depth waiting)
      ((Move.afterTerm left c).perform limit depth waiting c)
      (Rules.terms registry inner bound left c) := by
  induction bound generalizing left c with
  | zero =>
    rw [Move.afterTerm,
      Cursor.operator?_of_next?_none (Cursor.next?_of_length_le_zero enough)]
    exact .here (left, c)
  | succ bound ih =>
    rw [Move.afterTerm, Rules.terms]
    cases joined : c.operator?.filter isAdditive with
    | some operator =>
      refine (nested.term (.nextTerm left operator :: waiting) c.advance).called rfl
        fun right c' read => ?_
      have shorter := length_term nested.derive read
      have advanced := c.length_advance_le
      exact ih _ (by omega)
    | none => exact .here (left, c)

theorem sum (nested : Nested registry limit depth inner) (waiting : List Frame) (c : Cursor) :
    Gives registry limit (answering depth waiting) ⟨c, depth, waiting, .enter .expression⟩
      (Rules.sum registry inner c) :=
  .enter ((nested.term (.firstTerm :: waiting) c).called rfl fun left _ _ =>
    nested.terms waiting left (Nat.le_refl _))

/-- The machine keeps the arguments that it has, where the rules wait for the ones that follow. -/
theorem moreArguments (nested : Nested registry limit depth inner) (waiting : List Frame)
    {bound : Nat} (given : List Binary64) {c : Cursor} (enough : c.rest.length ≤ bound) :
    Gives registry limit (fun result => listing depth waiting (given ++ result.1, result.2))
      ((Move.afterArgument given c).perform limit depth waiting c)
      (untilClosing (Rules.moreArguments registry inner bound c)) := by
  induction bound generalizing given c with
  | zero =>
    have none := Cursor.operator?_of_next?_none (Cursor.next?_of_length_le_zero enough)
    simp only [Move.afterArgument, Rules.moreArguments, untilClosing, ok_bind, Cursor.expect, none,
      reduceCtorEq, if_false]
    exact .fault _ _
  | succ bound ih =>
    by_cases comma : c.operator? = some .comma
    · have more : untilClosing (Rules.moreArguments registry inner (bound + 1) c) =
          Rules.sum registry inner c.advance >>= fun result =>
            (untilClosing (Rules.moreArguments registry inner bound result.2)).map
              fun further => (result.1 :: further.1, further.2) := by
        rw [moreArguments_of_comma registry inner comma, untilClosing]
        simp only [bind_bind, ok_bind, cons_closed_arguments]
      rw [more, Move.afterArgument, if_pos comma]
      refine (nested.sum (.argument given :: waiting) c.advance).called rfl fun x c' read => ?_
      have shorter := length_sum nested.derive read
      have advanced := c.length_advance_le
      refine .map ?_
      have further := ih (given ++ [x]) (show c'.rest.length ≤ bound by omega)
      simp only [List.append_assoc, List.singleton_append] at further
      exact further
    · rw [moreArguments_of_no_comma registry inner comma, Move.afterArgument, if_neg comma]
      simp only [untilClosing, ok_bind, Cursor.expect]
      by_cases closing : c.operator? = some .closing
      · simp only [if_pos closing]
        refine .of_eq ?_
        rw [List.append_nil]
        rfl
      · simp only [if_neg closing]
        exact .fault _ _

theorem argumentList (nested : Nested registry limit depth inner) (waiting : List Frame)
    (c : Cursor) :
    Gives registry limit (listing depth waiting) ⟨c, depth, waiting, .enter .arguments⟩
      (Rules.argumentList registry inner c) := by
  refine .enter ?_
  rw [Procedure.start, Rules.argumentList]
  by_cases closing : c.operator? = some .closing
  · simp only [if_pos closing]
    exact .here ([], c.advance)
  · simp only [if_neg closing]
    refine (nested.sum (.argument [] :: waiting) c).called rfl fun x c' _ => ?_
    dsimp only
    rw [cons_closed_arguments]
    exact .map (nested.moreArguments waiting [x] (Nat.le_refl _))

/-- A whole expression has to end where the tokens do. -/
theorem whole (nested : Nested registry limit 0 inner) {tokens : Tokens} {lexeme : Lexeme}
    (next : tokens.start.next? = some lexeme) :
    Gives registry limit (answering 0 []) (Machine.start tokens) (do
      let (x, c) ← Rules.sum registry inner tokens.start
      match c.rest with
      | .finish _ => .ok (x, c)
      | .token lexeme position _ => .error (.unexpectedLexeme lexeme position)) := by
  have begins : Procedure.start registry tokens.start .parse = .stay (.call .whole) := by
    rw [Procedure.start, next, if_neg (by simp)]
  refine .enter ?_
  rw [← Tokens.start, begins]
  refine (nested.sum [.whole] tokens.start).called rfl fun x c' _ => ?_
  simp only [Frame.resume]
  cases c'.rest with
  | finish position => exact .here (x, c')
  | token lexeme position rest => exact .fault _ _

/-- The rules of a level read the calls that nest in the level around it. -/
theorem around (nested : Nested registry limit (depth + 1) inner) (deeper : depth < limit) :
    Nested registry limit depth (Rules.around registry inner) where
  derive := derive_around registry nested.derive
  expression waiting c := .admitted rfl deeper (nested.sum (.group :: waiting) c)
  arguments waiting name function c :=
    .admitted rfl deeper (nested.argumentList (.call name function :: waiting) c)
  power waiting base c := .admitted rfl deeper (nested.raised (.exponent base :: waiting) c)
  unary waiting sign c := .admitted rfl deeper (nested.signed (.signed sign :: waiting) c)

end Rules.Nested

theorem Rules.nested_refuse (registry : Registry) (limit : Nat) :
    Nested registry limit limit (refuse limit) where
  derive := derive_refuse limit
  expression _ _ := .refused rfl rfl
  arguments _ _ _ _ := .refused rfl rfl
  power _ _ _ := .refused rfl rfl
  unary _ _ _ := .refused rfl rfl

/-- The counter and the levels that are left go together. -/
theorem Rules.nested_inside (registry : Registry) {limit depth levels : Nat}
    (together : depth + levels = limit) :
    Nested registry limit depth (inside registry limit levels) := by
  induction levels generalizing depth with
  | zero =>
    subst together
    exact nested_refuse registry depth
  | succ levels ih =>
    rw [inside, nested_eq]
    have nested : Nested registry limit (depth + 1) (inside registry limit levels) :=
      ih (by omega)
    exact nested.around (by omega)

theorem Tokens.value_token (registry : Registry) (limit : Nat) (lexeme : Lexeme) (position : Nat)
    (rest : Tokens) :
    (Tokens.token lexeme position rest).value registry limit = (do
      let (x, c) ← Rules.sum registry (inside registry limit limit)
        (Tokens.token lexeme position rest).start
      match c.rest with
      | .finish _ => .ok x
      | .token lexeme position _ => .error (.unexpectedLexeme lexeme position)) := by
  unfold value
  rw [nested_eq]
  rfl

namespace Machine

variable (registry : Registry) (limit : Nat)

/-- Everything comes to an end with the value that the rules give, or with their fault. -/
theorem exists_outcome (tokens : Tokens) :
    ∃ moves, ((start tokens).run registry limit moves).outcome? =
      some (tokens.value registry limit) := by
  cases tokens with
  | finish position => exact ⟨1, rfl⟩
  | token lexeme position rest =>
    have whole := (nested_inside registry (Nat.zero_add limit)).whole
      (show (Tokens.token lexeme position rest).start.next? = some lexeme from rfl)
    rw [Tokens.value_token]
    cases read : Rules.sum registry (inside registry limit limit)
      (Tokens.token lexeme position rest).start with
    | error fault =>
      rw [read] at whole
      exact whole
    | ok result =>
      simp only [read, ok_bind] at whole ⊢
      cases found : result.2.rest with
      | finish position =>
        rw [found] at whole
        obtain ⟨moves, reached⟩ := whole
        exact ⟨moves, by rw [reached]; rfl⟩
      | token lexeme position rest =>
        rw [found] at whole
        exact whole

/-- Reading ends on all tokens, with the value or the fault that the rules give. Until then every
move passes one token or none, what is left to be read is always an end of the tokens, and there are
never more than 460 activations at a time. -/
theorem reading_bounded (tokens : Tokens) :
    (∃ moves, ∀ further,
      ((start tokens).run registry nestingLimit (moves + further)).outcome? =
        some (tokens.value registry nestingLimit)) ∧
    ∀ moves,
      ((start tokens).run registry nestingLimit moves).height ≤ 460 ∧
      ((start tokens).run registry nestingLimit moves).cursor.rest.toList <:+ tokens.toList ∧
      (((start tokens).run registry nestingLimit (moves + 1)).cursor =
          ((start tokens).run registry nestingLimit moves).cursor ∨
        ((start tokens).run registry nestingLimit (moves + 1)).cursor =
          ((start tokens).run registry nestingLimit moves).cursor.advance) := by
  refine ⟨?_, fun moves => ⟨?_, ?_, ?_⟩⟩
  · obtain ⟨moves, ended⟩ := exists_outcome registry nestingLimit tokens
    refine ⟨moves, fun further => ?_⟩
    rw [run_add, run_of_outcome? registry nestingLimit ended]
    exact ended
  · have bounded := height_run_le registry tokens nestingLimit moves
    exact Nat.le_trans bounded (by decide)
  · exact run_rest_suffix registry nestingLimit moves (start tokens)
  · rw [run_succ]
    exact step_cursor registry nestingLimit _

end Machine

end Calculator
