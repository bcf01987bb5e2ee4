import Calculator.Evaluation
import Calculator.Proofs.Grammar.Activations

/-!
# The height of the stack

Between two calls that nest, the procedures call one another only from the looser to the tighter
ones, so at most seven activations stand on one level. The counter of nesting is the number of
waiting activations whose call nests, and it never passes its limit. So the height of the stack is
bounded by the limit alone, whatever is read.
-/
namespace Calculator

/-- How many activations of one level there can be up to one of this procedure. A level begins with
the whole, with the arguments of a call, or with an operand that nests. -/
def Procedure.rank : Procedure → Nat
  | parse => 1
  | expression => 2
  | term => 3
  | power => 4
  | unary => 5
  | primary => 6
  | name _ => 7
  | arguments => 1

theorem Procedure.rank_le (procedure : Procedure) : procedure.rank ≤ 7 := by
  cases procedure <;> simp [rank]

/-- A call goes up by one, unless it nests; then it has seven more to go up by. -/
theorem Frame.rank_callee (frame : Frame) :
    frame.owner.rank + 1 ≤ 7 * frame.nests.toNat + frame.callee.rank := by
  cases frame <;> simp [owner, callee, nests, Procedure.rank]

/-- The number of levels that these activations take. -/
def levelsOf (waiting : List Frame) : Nat :=
  waiting.countP Frame.nests

theorem levelsOf_cons (frame : Frame) (waiting : List Frame) :
    levelsOf (frame :: waiting) = levelsOf waiting + frame.nests.toNat := by
  rw [levelsOf, List.countP_cons]
  cases frame.nests <;> rfl

/-- An activation of the procedure may stand above the ones that wait. -/
def Procedure.Above (waiting : List Frame) (procedure : Procedure) : Prop :=
  waiting.length + 1 ≤ 7 * levelsOf waiting + procedure.rank

/-- What a waiting activation calls may stand above it. -/
theorem Procedure.Above.callee {frame : Frame} {waiting : List Frame}
    (h : frame.owner.Above waiting) : frame.callee.Above (frame :: waiting) := by
  have up := frame.rank_callee
  unfold Above at *
  rw [levelsOf_cons, List.length_cons]
  omega

/-- Each of these activations may stand above the ones below it. -/
def Stacked : List Frame → Prop
  | [] => True
  | frame :: waiting => frame.owner.Above waiting ∧ Stacked waiting

theorem Stacked.length_le {waiting : List Frame} (h : Stacked waiting) :
    waiting.length ≤ 7 * levelsOf waiting + 7 := by
  cases waiting with
  | nil => exact Nat.zero_le _
  | cons frame waiting =>
    have above := h.1
    have rank := frame.owner.rank_le
    unfold Procedure.Above at above
    rw [levelsOf_cons, List.length_cons]
    omega

/-! ## Calls are made in the caller's name -/

/-- The effect of an activation of this procedure: what it calls, it waits for itself. -/
def Effect.By (procedure : Procedure) : Effect → Prop
  | call frame => frame.owner = procedure
  | _ => True

def Move.By (procedure : Procedure) : Move → Prop
  | stay effect | pass effect => effect.By procedure

theorem Move.by_afterTerm (left : Binary64) (c : Cursor) : (afterTerm left c).By .expression := by
  unfold afterTerm
  split
  · rfl
  · trivial

theorem Move.by_afterFactor (left : Binary64) (c : Cursor) : (afterFactor left c).By .term := by
  unfold afterFactor
  split
  · rfl
  · split
    · rfl
    · trivial

theorem Move.by_afterArgument (given : List Binary64) (c : Cursor) :
    (afterArgument given c).By .arguments := by
  unfold afterArgument
  split
  · rfl
  · split <;> trivial

/-- An activation that begins calls in its own name. -/
theorem Procedure.by_start (registry : Registry) (c : Cursor) (procedure : Procedure) :
    (procedure.start registry c).By procedure := by
  cases procedure with
  | parse =>
    rw [start]
    split
    · trivial
    · rfl
  | expression | term | power => rfl
  | unary =>
    rw [start]
    split <;> rfl
  | primary =>
    rw [start]
    split
    · trivial
    · split
      · trivial
      · rfl
      · rfl
      · trivial
  | name text =>
    rw [start]
    split
    · split
      · rfl
      · trivial
    · split
      · split <;> trivial
      · trivial
  | arguments =>
    rw [start]
    split
    · trivial
    · rfl

/-- An activation that goes on calls in its own name. -/
theorem Frame.by_resume (c : Cursor) (frame : Frame) (answer : Answer) :
    (frame.resume c answer).By frame.owner := by
  cases answer with
  | values xs =>
    cases frame with
    | call name function =>
      simp only [resume]
      split <;> trivial
    | _ => trivial
  | value x =>
    cases frame with
    | whole =>
      simp only [resume]
      split <;> trivial
    | firstTerm | nextTerm left operator => exact Move.by_afterTerm _ c
    | firstFactor | implicitFactor left => exact Move.by_afterFactor _ c
    | nextFactor left operator =>
      simp only [resume]
      split
      · exact Move.by_afterFactor _ c
      · trivial
    | base =>
      simp only [resume]
      split
      · rfl
      · trivial
    | group =>
      simp only [resume]
      split <;> trivial
    | argument given => exact Move.by_afterArgument _ c
    | exponent base | signed sign | unsigned | named name | call name function => trivial

/-! ## The invariant -/

/-- The counter is right and within its limit, and every activation may stand where it stands. -/
structure Machine.Valid (limit : Nat) (s : Machine) : Prop where
  depth : s.depth = levelsOf s.waiting
  within : s.depth ≤ limit
  stacked : Stacked s.waiting
  entered {procedure : Procedure} (h : s.control = .enter procedure) :
    procedure.Above s.waiting

section Perform

variable {limit depth : Nat} {waiting : List Frame}

/-- An activation acts in a valid way above those that wait. -/
theorem Effect.valid_perform (counted : depth = levelsOf waiting) (within : depth ≤ limit)
    (stacked : Stacked waiting) (c : Cursor) {procedure : Procedure}
    (above : procedure.Above waiting) {effect : Effect} (own : effect.By procedure) :
    (effect.perform limit depth waiting c).Valid limit := by
  cases effect with
  | call frame =>
    subst own
    rw [perform]
    split
    · exact ⟨rfl, Nat.zero_le _, trivial, fun h => by cases h⟩
    · rename_i admitted
      refine ⟨?_, ?_, ⟨above, stacked⟩, fun h => ?_⟩
      · rw [levelsOf_cons, counted]
      · cases nests : frame.nests with
        | false => exact within
        | true =>
          simp only [nests, true_and, Nat.not_lt] at admitted
          exact admitted
      · cases h
        exact above.callee
  | answer answer => exact ⟨counted, within, stacked, fun h => by cases h⟩
  | fail fault => exact ⟨rfl, Nat.zero_le _, trivial, fun h => by cases h⟩

theorem Move.valid_perform (counted : depth = levelsOf waiting) (within : depth ≤ limit)
    (stacked : Stacked waiting) (c : Cursor) {procedure : Procedure}
    (above : procedure.Above waiting) {move : Move} (own : move.By procedure) :
    (move.perform limit depth waiting c).Valid limit := by
  cases move with
  | stay effect => exact effect.valid_perform counted within stacked c above own
  | pass effect => exact effect.valid_perform counted within stacked c.advance above own

end Perform

namespace Machine

variable (registry : Registry) {limit : Nat}

theorem valid_start (tokens : Tokens) (limit : Nat) : (start tokens).Valid limit where
  depth := rfl
  within := Nat.zero_le _
  stacked := trivial
  entered h := by
    cases h
    exact Nat.le_refl 1

/-- A move keeps the stack in order. -/
theorem Valid.step {s : Machine} (h : s.Valid limit) : (s.step registry limit).Valid limit := by
  unfold Machine.step
  split
  · rename_i procedure entered
    exact Move.valid_perform h.depth h.within h.stacked s.cursor (h.entered entered)
      (procedure.by_start registry s.cursor)
  · rename_i answer answered
    split
    · exact h
    · rename_i frame waiting found
      -- the caller is taken from the stack, and with it the level of its call
      have depth := h.depth
      have within := h.within
      have stacked := h.stacked
      rw [found] at depth stacked
      rw [levelsOf_cons] at depth
      exact Move.valid_perform (by omega) (by omega) stacked.2 s.cursor stacked.1
        (frame.by_resume s.cursor answer)
  · exact h

theorem Valid.run {s : Machine} (h : s.Valid limit) (moves : Nat) :
    (s.run registry limit moves).Valid limit := by
  induction moves with
  | zero => exact h
  | succ moves ih =>
    rw [run_succ]
    exact ih.step registry

theorem Valid.height_le {s : Machine} (h : s.Valid limit) : s.height ≤ 7 * (limit + 1) := by
  have depth := h.depth
  have within := h.within
  unfold height
  split
  · rename_i procedure entered
    have above := h.entered entered
    have rank := procedure.rank_le
    unfold Procedure.Above at above
    omega
  · have stacked := h.stacked.length_le
    omega

/-- However long and however wrong the input is, the stack is bounded by the limit of nesting. -/
theorem height_run_le (tokens : Tokens) (limit moves : Nat) :
    ((start tokens).run registry limit moves).height ≤ 7 * (limit + 1) :=
  ((valid_start tokens limit).run registry moves).height_le

/-- Calls inside calls bring the stack to its greatest height. -/
example :
    (Tokens.ofText (List.replicate 65 "sin(".toList).flatten).toOption.map (fun tokens =>
      ((start tokens).run .standard nestingLimit 454).height) =
    some (7 * (nestingLimit + 1)) := by
  decide +kernel

end Machine

end Calculator
