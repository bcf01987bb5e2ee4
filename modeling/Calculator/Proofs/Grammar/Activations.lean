import Mathlib.Logic.Function.Iterate
import Calculator.Proofs.Grammar.Derivation

/-!
# Activations of the procedures

Reading by the grammar, one move at a time. Every rule is a procedure, a call of it is an
activation, and the caller waits until it is answered. The activations that wait stand on a stack,
the innermost one first, and only the innermost activation of all moves: it looks at the next token,
passes it or not, and calls a procedure, answers its caller or meets a fault.

Nothing here counts how often a loop may still go round, and there are no levels to be used up. What
keeps the stack low is one counter of the calls that nest; such a call is refused when the counter
is at its limit, and the counter goes back when the call is answered.
-/
namespace Calculator

/-- What the grammar is read by. -/
inductive Procedure where
  | parse | expression | term | power | unary | primary
  | name (text : List Char)
  | arguments

/-- What an activation that waits has read so far, and by that the call that it waits for. -/
inductive Frame where
  | whole
  | firstTerm
  | nextTerm (left : Binary64) (operator : Operator)
  | firstFactor
  | nextFactor (left : Binary64) (operator : Operator)
  | implicitFactor (left : Binary64)
  | base
  | exponent (base : Binary64)
  | signed (sign : Operator)
  | unsigned
  | group
  | named (name : List Char)
  | call (name : List Char) (function : Function)
  | argument (given : List Binary64)

namespace Frame

/-- The procedure of the activation that waits. -/
def owner : Frame → Procedure
  | whole => .parse
  | firstTerm | nextTerm _ _ => .expression
  | firstFactor | nextFactor _ _ | implicitFactor _ => .term
  | base | exponent _ => .power
  | signed _ | unsigned => .unary
  | group | named _ => .primary
  | call name _ => .name name
  | argument _ => .arguments

/-- The procedure that is waited for. -/
def callee : Frame → Procedure
  | whole | group | argument _ => .expression
  | firstTerm | nextTerm _ _ => .term
  | firstFactor | nextFactor _ _ | implicitFactor _ | exponent _ => .power
  | base | signed _ => .unary
  | unsigned => .primary
  | named name => .name name
  | call _ _ => .arguments

/-- The call is counted as a level of nesting. -/
def nests : Frame → Bool
  | exponent _ | signed _ | group | call _ _ => true
  | _ => false

end Frame

/-- What a procedure gives back. -/
inductive Answer where
  | value (x : Binary64)
  | values (xs : List Binary64)

/-- What an activation does after it has looked at the next token. -/
inductive Effect where
  | call (frame : Frame)
  | answer (answer : Answer)
  | fail (fault : Fault)

/-- An effect, with the next token passed before it or not. -/
inductive Move where
  | stay (effect : Effect)
  | pass (effect : Effect)

/-- The move of an activation that has just been called. -/
def Procedure.start (registry : Registry) (c : Cursor) : Procedure → Move
  | .parse => if c.next? = none then .stay (.fail .empty) else .stay (.call .whole)
  | .expression => .stay (.call .firstTerm)
  | .term => .stay (.call .firstFactor)
  | .power => .stay (.call .base)
  | .unary =>
    match c.operator? with
    | some .minus => .pass (.call (.signed .minus))
    | some .plus => .pass (.call (.signed .plus))
    | _ => .stay (.call .unsigned)
  | .primary =>
    match c.rest with
    | .finish position => .stay (.fail (.unexpectedEnd position))
    | .token lexeme position _ =>
      match lexeme with
      | .number numeral => .pass (.answer (.value numeral.value))
      | .name text => .pass (.call (.named text))
      | .operator .opening => .pass (.call .group)
      | .operator _ => .pass (.fail (.unexpectedLexeme lexeme position))
  | .name text =>
    match registry.function? text with
    | some function =>
      if c.operator? = some .opening then .pass (.call (.call text function))
      else .stay (.fail (.functionAsValue text))
    | none =>
      match registry.constant? text with
      | some value =>
        if c.operator? = some .opening then .stay (.fail (.notFunction text))
        else .stay (.answer (.value value))
      | none => .stay (.fail (.unknownName text))
  | .arguments =>
    if c.operator? = some .closing then .pass (.answer (.values []))
    else .stay (.call (.argument []))

/-- The move of an expression behind the terms with the sum `left`. -/
def Move.afterTerm (left : Binary64) (c : Cursor) : Move :=
  match c.operator?.filter Rules.isAdditive with
  | some operator => .pass (.call (.nextTerm left operator))
  | none => .stay (.answer (.value left))

/-- The move of a term behind the factors with the product `left`. -/
def Move.afterFactor (left : Binary64) (c : Cursor) : Move :=
  match c.operator?.filter Rules.isMultiplicative with
  | some operator => .pass (.call (.nextFactor left operator))
  | none =>
    if c.startsFactor then .stay (.call (.implicitFactor left))
    else .stay (.answer (.value left))

/-- The move of an argument list behind the arguments `given`. -/
def Move.afterArgument (given : List Binary64) (c : Cursor) : Move :=
  if c.operator? = some .comma then .pass (.call (.argument given))
  else if c.operator? = some .closing then .pass (.answer (.values given))
  else .stay (.fail (.expected .closing c.next?))

/-- The move of an activation whose call has been answered. Only an argument list answers with
several values, and only a call of a function waits for them; any other frame would hand them on. -/
def Frame.resume (c : Cursor) : Frame → Answer → Move
  | .whole, .value x =>
    match c.rest with
    | .finish _ => .stay (.answer (.value x))
    | .token lexeme position _ => .stay (.fail (.unexpectedLexeme lexeme position))
  | .firstTerm, .value left => .afterTerm left c
  | .nextTerm left operator, .value right =>
    .afterTerm (if operator = .minus then left - right else left + right) c
  | .firstFactor, .value left => .afterFactor left c
  | .nextFactor left operator, .value right =>
    match Rules.multiplicative operator left right with
    | .ok value => .afterFactor value c
    | .error fault => .stay (.fail fault)
  | .implicitFactor left, .value right => .afterFactor (left * right) c
  | .base, .value x =>
    if c.operator? = some .power then .pass (.call (.exponent x))
    else .stay (.answer (.value x))
  | .exponent x, .value y => .stay (.answer (.value (x.power y)))
  | .signed sign, .value x => .stay (.answer (.value (if sign = .minus then x.neg else x)))
  | .group, .value x =>
    if c.operator? = some .closing then .pass (.answer (.value x))
    else .stay (.fail (.expected .closing c.next?))
  | .call name function, .values xs =>
    match function.valueAt? xs with
    | some value => .stay (.answer (.value value))
    | none => .stay (.fail (.wrongCount name function.arity xs.length))
  | .argument given, .value x => .afterArgument (given ++ [x]) c
  | _, answer => .stay (.answer answer)

/-- What happens next: an activation begins, the innermost caller is answered, or nothing more. -/
inductive Control where
  | enter (procedure : Procedure)
  | answer (answer : Answer)
  | fault (fault : Fault)

/-- The tokens to be read, the counter of nesting, and the activations that wait. -/
structure Machine where
  cursor : Cursor
  depth : Nat
  waiting : List Frame
  control : Control

/-- An activation acts above those that wait. A fault ends all of them. -/
def Effect.perform (limit depth : Nat) (waiting : List Frame) (c : Cursor) : Effect → Machine
  | .call frame =>
    if frame.nests ∧ limit < depth + 1 then ⟨c, 0, [], .fault (.nestedTooDeep limit)⟩
    else ⟨c, depth + frame.nests.toNat, frame :: waiting, .enter frame.callee⟩
  | .answer result => ⟨c, depth, waiting, .answer result⟩
  | .fail fault => ⟨c, 0, [], .fault fault⟩

def Move.perform (limit depth : Nat) (waiting : List Frame) (c : Cursor) : Move → Machine
  | .stay effect => effect.perform limit depth waiting c
  | .pass effect => effect.perform limit depth waiting c.advance

namespace Machine

/-- Everything is still to be read. -/
def start (tokens : Tokens) : Machine :=
  ⟨⟨false, tokens⟩, 0, [], .enter .parse⟩

/-- One move of the innermost activation. When there is none left the machine stands still. -/
def step (registry : Registry) (limit : Nat) (s : Machine) : Machine :=
  match s.control with
  | .enter procedure =>
    (procedure.start registry s.cursor).perform limit s.depth s.waiting s.cursor
  | .answer answer =>
    match s.waiting with
    | [] => s
    | frame :: waiting =>
      (frame.resume s.cursor answer).perform limit (s.depth - frame.nests.toNat) waiting s.cursor
  | .fault _ => s

/-- The machine after a number of moves. -/
def run (registry : Registry) (limit moves : Nat) (s : Machine) : Machine :=
  (step registry limit)^[moves] s

/-- The result, once no activation is left. -/
def outcome? (s : Machine) : Option (Except Fault Binary64) :=
  match s.control, s.waiting with
  | .answer (.value x), [] => some (.ok x)
  | .fault fault, [] => some (.error fault)
  | _, _ => none

/-- The number of activations: those that wait, and one that has just been called. -/
def height (s : Machine) : Nat :=
  match s.control with
  | .enter _ => s.waiting.length + 1
  | _ => s.waiting.length

end Machine

/-! ## Tokens are passed from left to right -/

theorem Effect.perform_cursor (limit depth : Nat) (waiting : List Frame) (c : Cursor)
    (effect : Effect) : (effect.perform limit depth waiting c).cursor = c := by
  cases effect with
  | call frame =>
    rw [perform]
    split <;> rfl
  | answer answer => rfl
  | fail fault => rfl

theorem Move.perform_cursor (limit depth : Nat) (waiting : List Frame) (c : Cursor) (move : Move) :
    (move.perform limit depth waiting c).cursor = c ∨
      (move.perform limit depth waiting c).cursor = c.advance := by
  cases move with
  | stay effect => exact .inl (effect.perform_cursor limit depth waiting c)
  | pass effect => exact .inr (effect.perform_cursor limit depth waiting c.advance)

/-- Passing a token takes at most the first of the rest away. -/
theorem Cursor.toList_advance_suffix (c : Cursor) : c.advance.rest.toList <:+ c.rest.toList := by
  unfold advance
  split
  · exact List.suffix_rfl
  · rename_i lexeme position rest found
    rw [found]
    exact List.suffix_cons _ _

namespace Machine

variable (registry : Registry) (limit : Nat)

/-- A move passes one token or none. -/
theorem step_cursor (s : Machine) :
    (s.step registry limit).cursor = s.cursor ∨
      (s.step registry limit).cursor = s.cursor.advance := by
  unfold step
  split
  · exact Move.perform_cursor ..
  · split
    · exact .inl rfl
    · exact Move.perform_cursor ..
  · exact .inl rfl

theorem run_succ (moves : Nat) (s : Machine) :
    s.run registry limit (moves + 1) = (s.run registry limit moves).step registry limit :=
  Function.iterate_succ_apply' _ _ _

theorem run_add (moves further : Nat) (s : Machine) :
    s.run registry limit (moves + further) =
      (s.run registry limit moves).run registry limit further := by
  rw [Nat.add_comm]
  exact Function.iterate_add_apply _ _ _ _

/-- What is still to be read is an end of what was to be read before. -/
theorem run_rest_suffix (moves : Nat) (s : Machine) :
    (s.run registry limit moves).cursor.rest.toList <:+ s.cursor.rest.toList := by
  induction moves with
  | zero => exact List.suffix_rfl
  | succ moves ih =>
    rw [run_succ]
    rcases step_cursor registry limit (s.run registry limit moves) with same | passed
    · rw [same]
      exact ih
    · rw [passed]
      exact (Cursor.toList_advance_suffix _).trans ih

/-- Once there is a result, it stays. -/
theorem step_of_outcome? {s : Machine} {outcome : Except Fault Binary64}
    (ended : s.outcome? = some outcome) : s.step registry limit = s := by
  unfold outcome? at ended
  split at ended
  · rename_i control waiting
    rw [step, control, waiting]
  · rename_i control waiting
    rw [step, control]
  · cases ended

theorem run_of_outcome? {s : Machine} {outcome : Except Fault Binary64}
    (ended : s.outcome? = some outcome) (moves : Nat) : s.run registry limit moves = s :=
  Function.iterate_fixed (step_of_outcome? registry limit ended) moves

end Machine

end Calculator
