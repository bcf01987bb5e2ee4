import Calculator.Proofs.Surface.Calls

/-!
# Calls expanded from left to right

The second pass closes a call in the text behind it, after that text has been expanded. The same text
comes about in one pass from left to right that remembers, for each parenthesis that is open, whether
it opened a call of an angle: what the call needs in addition is closed right behind its parenthesis,
and never where the call stays open.
-/
namespace Calculator

/-- What follows a closing parenthesis in addition, by whether it closes a call of an angle. -/
def AngleMode.closing (mode : AngleMode) (angular : Bool) : List Char :=
  if mode = .degrees ∧ angular then [')'] else []

@[simp] theorem AngleMode.closing_false (mode : AngleMode) : mode.closing false = [] := by
  simp [closing]

/-- The text with the calls expanded. Of each open parenthesis, the innermost first, it is known
whether it opened a call of an angle. -/
def expandOnward (mode : AngleMode) (opened : List Bool) (skip : Nat) (before : Option Char) :
    List Char → List Char
  | [] => []
  | c :: rest =>
    match skip with
    | skip + 1 => expandOnward mode opened skip (some c) rest
    | 0 =>
      match SurfaceFunction.callAt? before (c :: rest) with
      | some f =>
        f.opening mode ++ expandOnward mode (f.isAngular :: opened) f.name.length (some c) rest
      | none =>
        if c = '(' then c :: expandOnward mode (false :: opened) 0 (some c) rest
        else if c = ')' then
          c :: (mode.closing (opened.headD false) ++ expandOnward mode opened.tail 0 (some c) rest)
        else c :: expandOnward mode opened 0 (some c) rest

/-- The text with `inserted` behind the parenthesis that closes the outermost of `depth` open ones;
without change if it stays open. -/
def insertBehind (depth : Nat) (inserted text : List Char) : List Char :=
  match closingOffset? depth text with
  | none => text
  | some offset => text.take (offset + 1) ++ inserted ++ text.drop (offset + 1)

theorem insertAfterClosing_eq (inserted text : List Char) :
    insertAfterClosing inserted text = insertBehind 1 inserted text := rfl

theorem insertBehind_nothing (depth : Nat) (text : List Char) : insertBehind depth [] text = text := by
  unfold insertBehind
  split
  · rfl
  · rw [List.append_nil, List.take_append_drop]

/-- Where the search goes on behind a text, the text stays. -/
theorem insertBehind_append {w rest : List Char} {depth depth' : Nat}
    (h : closingOffset? depth (w ++ rest) = (closingOffset? depth' rest).map (· + w.length))
    (inserted : List Char) :
    insertBehind depth inserted (w ++ rest) = w ++ insertBehind depth' inserted rest := by
  unfold insertBehind
  rw [h]
  cases closingOffset? depth' rest with
  | none => rfl
  | some offset =>
    have behind : offset + w.length + 1 = w.length + (offset + 1) := by omega
    simp only [Option.map_some, behind, List.take_length_add_append, List.drop_length_add_append,
      List.append_assoc]

/-- The text opens a number of parentheses that it does not close, and no other one is closed. -/
def Opens (w : List Char) (count : Nat) : Prop :=
  ∀ depth inserted rest, insertBehind (depth + 1) inserted (w ++ rest) =
    w ++ insertBehind (depth + 1 + count) inserted rest

theorem opens_nil : Opens [] 0 :=
  fun _ _ _ => rfl

theorem Opens.append {u w : List Char} {count count' : Nat} (hu : Opens u count)
    (hw : Opens w count') : Opens (u ++ w) (count + count') := by
  intro depth inserted rest
  have deeper := hw (depth + count) inserted rest
  rw [show depth + count + 1 = depth + 1 + count by omega] at deeper
  rw [List.append_assoc, hu, deeper, List.append_assoc, Nat.add_assoc]

theorem opens_opening : Opens ['('] 1 := by
  intro depth inserted rest
  apply insertBehind_append
  rw [List.cons_append, closingOffset?, if_pos rfl]
  rfl

theorem opens_plain {w : List Char} (h : ∀ c ∈ w, c ≠ '(' ∧ c ≠ ')') : Opens w 0 := by
  induction w with
  | nil => exact opens_nil
  | cons c w ih =>
    obtain ⟨opening, closing⟩ := h c List.mem_cons_self
    have first : Opens [c] 0 := by
      intro depth inserted rest
      apply insertBehind_append
      rw [List.cons_append, closingOffset?, if_neg opening, if_neg closing]
      rfl
    exact first.append (ih fun c member => h c (List.mem_cons_of_mem _ member))

/-- One of several parentheses is closed before the outermost. -/
theorem insertBehind_closing (depth : Nat) (inserted rest : List Char) :
    insertBehind (depth + 2) inserted (')' :: rest) =
      ')' :: insertBehind (depth + 1) inserted rest := by
  apply insertBehind_append (w := [')'])
  rw [List.singleton_append, closingOffset?, if_neg (by decide), if_pos rfl, if_neg (by omega)]
  rfl

theorem insertBehind_outermost (inserted rest : List Char) :
    insertBehind 1 inserted (')' :: rest) = ')' :: (inserted ++ rest) := by
  simp [insertBehind, closingOffset?]

theorem opens_enclosedLiteral (x : Binary64) : Opens (enclosedLiteral x) 0 := by
  intro depth inserted rest
  have inside := opens_plain (literal_plain x).1 (depth + 1) inserted (')' :: rest)
  have opening := opens_opening depth inserted (NumberFormat.literal.text x ++ ')' :: rest)
  rw [List.singleton_append, inside, Nat.add_zero, insertBehind_closing] at opening
  rw [enclosedLiteral_append, opening, enclosedLiteral_append]
  rfl

theorem Primitive.opens_name (p : Primitive) : Opens p.name 0 := by
  apply opens_plain
  cases p <;> exact forall_mem_of_all (by decide)

theorem SurfaceFunction.opens_base (f : SurfaceFunction) : Opens f.base 0 := by
  cases f with
  | powE =>
    have comma : Opens ", ".toList 0 := opens_plain (forall_mem_of_all (by decide))
    have whole : ∀ x, Opens (enclosedLiteral x ++ ", ".toList) 0 := fun x =>
      (opens_enclosedLiteral x).append comma
    exact whole _
  | _ => exact opens_plain (forall_mem_of_all (by decide))

theorem SurfaceFunction.closing_eq_isAngular (mode : AngleMode) (f : SurfaceFunction) :
    f.closing mode = mode.closing f.isAngular := rfl

/-- The opening of a call opens what its closing closes. -/
theorem SurfaceFunction.opens_opening (mode : AngleMode) (f : SurfaceFunction) :
    Opens (f.opening mode) ((mode.closing f.isAngular).length + 1) := by
  have names : ∀ stages : List Primitive,
      Opens (stages.flatMap fun p => p.name ++ ['(']) stages.length := by
    intro stages
    induction stages with
    | nil => exact opens_nil
    | cons p stages ih =>
      have call := (p.opens_name.append Calculator.opens_opening).append ih
      rw [Nat.zero_add, Nat.add_comm 1] at call
      exact call
  have count : (f.stages mode).length = (mode.closing f.isAngular).length + 1 := by
    have closing := congrArg List.length (f.closing_eq mode)
    rw [closing_eq_isAngular, List.length_cons, List.length_replicate] at closing
    exact closing.symm
  have all := (names (f.stages mode)).append f.opens_base
  rw [← opening_eq, count] at all
  exact all

/-- The number of parentheses to be closed for those that are open. -/
def AngleMode.levels (mode : AngleMode) : List Bool → Nat
  | [] => 0
  | angular :: opened => (mode.closing angular).length + 1 + mode.levels opened

/-- An inner parenthesis is closed with all that it needs in addition. -/
theorem insertBehind_closing_inner (mode : AngleMode) (angular : Bool) (depth : Nat)
    (inserted rest : List Char) :
    insertBehind ((mode.closing angular).length + 1 + depth + 1) inserted
        (')' :: (mode.closing angular ++ rest)) =
      ')' :: (mode.closing angular ++ insertBehind (depth + 1) inserted rest) := by
  unfold AngleMode.closing
  split
  · have last := insertBehind_closing depth inserted rest
    have outer := insertBehind_closing (depth + 1) inserted (')' :: rest)
    rw [last] at outer
    rw [show [')'].length + 1 + depth + 1 = depth + 1 + 2 from by simp only [List.length]; omega]
    exact outer
  · have closed := insertBehind_closing depth inserted rest
    rw [show [].length + 1 + depth + 1 = depth + 2 from by simp only [List.length]; omega]
    exact closed

/-- A parenthesis further out is closed in the expanded text where the pass closes it. -/
theorem expandOnward_outermost (mode : AngleMode) (angular : Bool) (opened : List Bool)
    (skip : Nat) (before : Option Char) (text : List Char) :
    expandOnward mode (opened ++ [angular]) skip before text =
      insertBehind (mode.levels opened + 1) (mode.closing angular)
        (expandOnward mode opened skip before text) := by
  induction text generalizing opened skip before with
  | nil => rfl
  | cons c rest ih =>
    cases skip with
    | succ skip => exact ih opened skip (some c)
    | zero =>
      simp only [expandOnward]
      cases SurfaceFunction.callAt? before (c :: rest) with
      | some f =>
        have inner := ih (f.isAngular :: opened) f.name.length (some c)
        rw [List.cons_append, AngleMode.levels] at inner
        simp only
        rw [inner, f.opens_opening mode]
        congr 2
        omega
      | none =>
        simp only
        split
        · rename_i opening
          have inner := ih (false :: opened) 0 (some c)
          rw [List.cons_append, AngleMode.levels, AngleMode.closing_false] at inner
          have passed := opens_opening (mode.levels opened) (mode.closing angular)
            (expandOnward mode (false :: opened) 0 (some c) rest)
          rw [opening, List.singleton_append] at *
          rw [inner, passed]
          rw [show [].length + 1 + mode.levels opened + 1 = mode.levels opened + 1 + 1 from by
            simp only [List.length]; omega]
          rfl
        · split
          · rename_i closing
            rw [closing]
            cases opened with
            | nil =>
              have outermost := insertBehind_outermost (mode.closing angular)
                (expandOnward mode [] 0 (some ')') rest)
              simp only [List.headD_nil, AngleMode.closing_false]
              exact outermost.symm
            | cons inner opened =>
              rw [AngleMode.levels]
              simp only [List.cons_append, List.headD_cons, List.tail_cons,
                insertBehind_closing_inner, ih opened 0 (some ')')]
          · rename_i opening closing
            have plain : Opens [c] 0 := opens_plain (by simpa using ⟨opening, closing⟩)
            have passed := plain (mode.levels opened) (mode.closing angular)
              (expandOnward mode opened 0 (some c) rest)
            rw [ih opened 0 (some c)]
            exact passed.symm

/-- Both ways of expanding come to the same text. -/
theorem expandCalls_eq_expandOnward (mode : AngleMode) (skip : Nat) (before : Option Char)
    (text : List Char) : expandCalls mode skip before text = expandOnward mode [] skip before text := by
  have outermost : ∀ angular skip before rest, expandOnward mode [angular] skip before rest =
      insertBehind 1 (mode.closing angular) (expandOnward mode [] skip before rest) :=
    fun angular => expandOnward_outermost mode angular []
  induction text generalizing skip before with
  | nil => rfl
  | cons c rest ih =>
    cases skip with
    | succ skip => exact ih skip (some c)
    | zero =>
      rw [expandCalls, expandOnward]
      cases SurfaceFunction.callAt? before (c :: rest) with
      | some f =>
        simp only
        rw [ih, insertAfterClosing_eq, f.closing_eq_isAngular, outermost]
      | none =>
        simp only [outermost, AngleMode.closing_false, insertBehind_nothing, List.headD_nil,
          List.tail_nil, ih, List.nil_append, ite_self]

/-! ## Steps of the pass -/

/-- The character before what follows a text. -/
def lastOf (before : Option Char) : List Char → Option Char
  | [] => before
  | c :: rest => lastOf (some c) rest

theorem lastOf_append (before : Option Char) (u w : List Char) :
    lastOf before (u ++ w) = lastOf (lastOf before u) w := by
  induction u generalizing before with
  | nil => rfl
  | cons c u ih => exact ih (some c)

/-- In the text in front of `tail` there is no parenthesis and no call starts. -/
def Plain (tail : List Char) (before : Option Char) : List Char → Prop
  | [] => True
  | c :: rest =>
    SurfaceFunction.callAt? before (c :: rest ++ tail) = none ∧ c ≠ '(' ∧ c ≠ ')' ∧
      Plain tail (some c) rest

theorem plain_of_quiet {tail w : List Char} {before : Option Char} (h : quiet before w = true)
    (parentheses : ∀ c ∈ w, c ≠ '(' ∧ c ≠ ')') : Plain tail before w := by
  induction w generalizing before with
  | nil => trivial
  | cons c w ih =>
    simp only [quiet, Bool.and_eq_true, Bool.or_eq_true, Bool.not_eq_true',
      List.contains_eq_mem, decide_eq_false_iff_not] at h
    obtain ⟨opening, closing⟩ := parentheses c List.mem_cons_self
    exact ⟨callAt?_eq_none _ h.1, opening, closing,
      ih h.2 fun d member => parentheses d (List.mem_cons_of_mem _ member)⟩

theorem Plain.append {tail : List Char} {before : Option Char} {u w : List Char}
    (h : Plain tail before (u ++ w)) : Plain tail (lastOf before u) w := by
  induction u generalizing before with
  | nil => exact h
  | cons c u ih => exact ih h.2.2.2

theorem Plain.callAt?_eq_none {tail : List Char} {before : Option Char} {u : List Char}
    (h : Plain tail before u) (nonempty : u ≠ []) :
    SurfaceFunction.callAt? before (u ++ tail) = none := by
  cases u with
  | nil => exact absurd rfl nonempty
  | cons c u => exact h.1

section Expansion

variable {mode : AngleMode} {opened : List Bool}

theorem expandOnward_plain {tail : List Char} {before : Option Char} {u : List Char}
    (h : Plain tail before u) : expandOnward mode opened 0 before (u ++ tail) =
      u ++ expandOnward mode opened 0 (lastOf before u) tail := by
  induction u generalizing before with
  | nil => rfl
  | cons c u ih =>
    obtain ⟨call, opening, closing, further⟩ := h
    rw [List.cons_append] at call
    rw [List.cons_append, expandOnward, call]
    simp only [if_neg opening, if_neg closing, ih further]
    rfl

theorem expandOnward_opening (before : Option Char) (rest : List Char) :
    expandOnward mode opened 0 before ('(' :: rest) =
      '(' :: expandOnward mode (false :: opened) 0 (some '(') rest := by
  rw [expandOnward, callAt?_eq_none rest (.inl (by decide))]
  rfl

theorem expandOnward_closing (before : Option Char) (rest : List Char) :
    expandOnward mode opened 0 before (')' :: rest) =
      ')' :: (mode.closing (opened.headD false) ++
        expandOnward mode opened.tail 0 (some ')') rest) := by
  rw [expandOnward, callAt?_eq_none rest (.inl (by decide))]
  rfl

/-- The rest of an opening is passed over. -/
theorem expandOnward_skip (skipped : List Char) (c : Char) (rest : List Char)
    (before : Option Char) :
    expandOnward mode opened (skipped.length + 1) before (skipped ++ c :: rest) =
      expandOnward mode opened 0 (some c) rest := by
  induction skipped generalizing before with
  | nil => rfl
  | cons d skipped ih =>
    rw [List.cons_append, List.length_cons, expandOnward, ih]

theorem expandOnward_call (f : SurfaceFunction) {before : Option Char}
    (h : isBoundary before = true) (rest : List Char) :
    expandOnward mode opened 0 before (f.name ++ '(' :: rest) =
      f.opening mode ++ expandOnward mode (f.isAngular :: opened) 0 (some '(') rest := by
  have call := callAt?_name f h rest
  cases name : f.name with
  | nil => cases f <;> cases name
  | cons c skipped =>
    rw [name, List.cons_append] at call
    rw [List.cons_append, expandOnward, call]
    simp only [name, List.length_cons, expandOnward_skip]

end Expansion

end Calculator
