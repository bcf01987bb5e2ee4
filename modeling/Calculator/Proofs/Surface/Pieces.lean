import Calculator.Proofs.Surface.Expansion

/-!
# Texts rewritten in two pieces

Trimming and both passes over a text act on two pieces of it one after the other, provided that
neither a word nor the opening of a call runs from the first into the second. The second pass only
has to know which parentheses the first piece has left open.
-/
namespace Calculator

theorem lastOf_eq (before : Option Char) (text : List Char) :
    lastOf before text = text.getLast?.or before := by
  induction text generalizing before with
  | nil => rfl
  | cons c text ih =>
    rw [lastOf, ih, List.getLast?_cons]
    cases text.getLast? <;> rfl

/-- What ends behind a further character ends alike without the one in front. -/
theorem getLast?_of_cons {c d : Char} {text : List Char} (h : text.getLast? = some d) :
    (c :: text).getLast? = some d := by
  rw [List.getLast?_cons, h]
  rfl

/-- A character at the end comes from what a text is rewritten to, if it does not end what stands for
the first character. -/
theorem getLast?_of_replaced {c d : Char} {first rest rewritten : List Char}
    (other : first.getLast? ≠ some d)
    (further : rewritten.getLast? = some d → rest.getLast? = some d)
    (h : (first ++ rewritten).getLast? = some d) : (c :: rest).getLast? = some d := by
  rw [List.getLast?_append] at h
  cases found : rewritten.getLast? with
  | none =>
    rw [found] at h
    exact absurd h other
  | some e =>
    rw [found] at h
    cases h
    exact getLast?_of_cons (further found)

/-- So does a character at the end behind a first character that stays. -/
theorem getLast?_of_kept {c d : Char} {rest rewritten : List Char}
    (nonempty : rest ≠ [] → rewritten ≠ [])
    (further : rewritten.getLast? = some d → rest.getLast? = some d)
    (h : (c :: rewritten).getLast? = some d) : (c :: rest).getLast? = some d := by
  by_cases empty : rewritten = []
  · rw [empty] at h
    rwa [Decidable.of_not_not fun more => nonempty more empty]
  · obtain ⟨e, behind, rfl⟩ := List.exists_cons_of_ne_nil empty
    rw [List.getLast?_cons_cons] at h
    exact getLast?_of_cons (further h)

/-- A condition on the last character of a text holds for what is left behind the first one. -/
theorem forall_getLast?_of_cons {P : Char → Prop} {c : Char} {text : List Char}
    (h : ∀ d, (c :: text).getLast? = some d → P d) : ∀ d, text.getLast? = some d → P d :=
  fun d last => h d (getLast?_of_cons last)

/-! ## Trimming -/

theorem exists_append_dropBlankEnd (text : List Char) :
    ∃ blanks, text = dropBlankEnd text ++ blanks ∧ ∀ c ∈ blanks, isBlank c = true := by
  induction text with
  | nil => exact ⟨[], rfl, by simp⟩
  | cons c rest ih =>
    obtain ⟨blanks, same, all⟩ := ih
    rw [dropBlankEnd]
    split
    · rename_i h
      simp only [Bool.and_eq_true, List.isEmpty_iff] at h
      obtain ⟨empty, blank⟩ := h
      rw [empty, List.nil_append] at same
      exact ⟨c :: rest, rfl, by rw [same]; simpa using ⟨blank, all⟩⟩
    · exact ⟨blanks, by rw [List.cons_append, ← same], all⟩

/-- Trimming takes blanks away at both ends. -/
theorem exists_append_trimBlanks (text : List Char) :
    ∃ lead trail, text = lead ++ (trimBlanks text ++ trail) ∧ lead = text.takeWhile isBlank ∧
      ∀ c ∈ lead ++ trail, isBlank c = true := by
  obtain ⟨trail, whole, trailing⟩ := exists_append_dropBlankEnd (text.dropWhile isBlank)
  have leading : ∀ c ∈ text.takeWhile isBlank, isBlank c = true :=
    List.all_eq_true.1 List.all_takeWhile
  refine ⟨text.takeWhile isBlank, trail, ?_, rfl, fun c member => ?_⟩
  · rw [trimBlanks, ← whole, List.takeWhile_append_dropWhile]
  · exact (List.mem_append.1 member).elim (leading c) (trailing c)

/-- No blank at the end is in front of something visible. -/
theorem dropBlankEnd_append {u : List Char} (visible : ∀ c, u.getLast? = some c → isBlank c = false)
    (w : List Char) : dropBlankEnd (u ++ w) = u ++ dropBlankEnd w := by
  induction u with
  | nil => rfl
  | cons c u ih =>
    rw [List.cons_append, dropBlankEnd, ih (forall_getLast?_of_cons visible), if_neg]
    · rfl
    · cases u with
      | nil => simp [visible c rfl]
      | cons d u => simp

theorem dropWhile_isBlank_append (u : List Char) {c : Char} (visible : isBlank c = false)
    (w : List Char) : (u ++ c :: w).dropWhile isBlank = u.dropWhile isBlank ++ c :: w := by
  induction u with
  | nil => rw [List.nil_append, List.dropWhile_cons_of_neg (by simp [visible])]; rfl
  | cons d u ih =>
    cases blank : isBlank d with
    | true => rw [List.cons_append, List.dropWhile_cons_of_pos blank, ih,
        List.dropWhile_cons_of_pos blank]
    | false => rw [List.cons_append, List.dropWhile_cons_of_neg (by simp [blank]),
        List.dropWhile_cons_of_neg (by simp [blank]), List.cons_append]

/-- What starts and ends with something visible is trimmed on its outer sides. -/
theorem trimBlanks_append (u : List Char) {c : Char} {middle : List Char}
    (start : isBlank c = false)
    (visible : ∀ d, (c :: middle).getLast? = some d → isBlank d = false) (w : List Char) :
    trimBlanks (u ++ (c :: middle ++ w)) =
      u.dropWhile isBlank ++ (c :: middle ++ dropBlankEnd w) := by
  have front : ∀ d, (u.dropWhile isBlank ++ c :: middle).getLast? = some d → isBlank d = false := by
    intro d last
    apply visible d
    cases found : (c :: middle).getLast? with
    | none => exact absurd (List.getLast?_eq_none_iff.1 found) (List.cons_ne_nil c middle)
    | some e =>
      rw [List.getLast?_append, found] at last
      exact last
  rw [trimBlanks, List.cons_append, dropWhile_isBlank_append u start, ← List.cons_append,
    ← List.append_assoc, dropBlankEnd_append front, List.append_assoc]

/-! ## Words -/

/-- No word runs from the first piece into the second one. -/
def NoWordAcross (u v : List Char) : Prop :=
  isBoundary u.getLast? = true ∨ isBoundary v.head? = true

theorem NoWordAcross.of_cons {c : Char} {u v : List Char} (h : NoWordAcross (c :: u) v) :
    NoWordAcross u v := by
  rcases h with ends | starts
  · left
    cases last : u.getLast? with
    | none => rfl
    | some d => rwa [getLast?_of_cons last] at ends
  · exact .inr starts

/-- Where a word of letters is cut, letters stand on both sides. -/
theorem not_noWordAcross {x y : List Char} (letters : ∀ c ∈ x ++ y, isNameStart c = true)
    (nonempty : x ≠ []) (nonempty' : y ≠ []) (behind : List Char) :
    ¬ NoWordAcross x (y ++ behind) := by
  obtain ⟨front, c, rfl⟩ := List.eq_nil_or_concat x |>.resolve_left nonempty
  obtain ⟨d, further, rfl⟩ := List.exists_cons_of_ne_nil nonempty'
  have letter : isNameStart c = true := letters c (by simp)
  have letter' : isNameStart d = true := letters d (by simp)
  simp [NoWordAcross, isBoundary, letter, letter']

theorem standsAlone_append {word : List Char} (letters : ∀ c ∈ word, isNameStart c = true)
    (nonempty : word ≠ []) (before : Option Char) {u v : List Char} (some : u ≠ [])
    (cut : NoWordAcross u v) :
    standsAlone word before (u ++ v) = standsAlone word before u := by
  cases isPrefix : word.isPrefixOf u with
  | true =>
    obtain ⟨further, rfl⟩ := List.isPrefixOf_iff_prefix.1 isPrefix
    have longer : word.isPrefixOf (word ++ further ++ v) = true :=
      List.isPrefixOf_iff_prefix.2 ⟨further ++ v, by rw [List.append_assoc]⟩
    rw [standsAlone, standsAlone, longer, isPrefix, List.append_assoc, List.drop_left, List.drop_left]
    cases further with
    | cons c further => rfl
    | nil =>
      have next : isBoundary v.head? = true := by
        rcases cut with ends | starts
        · obtain ⟨front, c, rfl⟩ := List.eq_nil_or_concat word |>.resolve_left nonempty
          have letter : isNameStart c = true := letters c (by simp)
          simp [isBoundary, letter] at ends
        · exact starts
      rw [List.nil_append, next]
      rfl
  | false =>
    have shorter : word.isPrefixOf (u ++ v) = false := by
      rw [← Bool.not_eq_true, List.isPrefixOf_iff_prefix] at *
      rintro ⟨behind, same⟩
      rcases List.append_eq_append_iff.1 same with ⟨x, whole, -⟩ | ⟨x, whole, rest⟩
      · exact isPrefix ⟨x, whole.symm⟩
      · by_cases empty : x = []
        · exact isPrefix ⟨[], by rw [whole, empty, List.append_nil, List.append_nil]⟩
        · rw [whole] at letters
          rw [rest] at cut
          exact not_noWordAcross letters some empty behind cut
    rw [standsAlone, standsAlone, shorter, isPrefix, Bool.and_false, Bool.false_and, Bool.false_and]

section Substitution

variable {answer : Binary64}

theorem substitute_append {skip : Nat} {before : Option Char} {u v : List Char}
    (enough : skip ≤ u.length) (cut : NoWordAcross u v) :
    substitute answer skip before (u ++ v) =
      substitute answer skip before u ++ substitute answer 0 (lastOf before u) v := by
  induction u generalizing skip before with
  | nil =>
    obtain rfl : skip = 0 := Nat.le_zero.1 enough
    rfl
  | cons c u ih =>
    have step : ∀ {skip : Nat}, skip ≤ u.length → substitute answer skip (some c) (u ++ v) =
        substitute answer skip (some c) u ++ substitute answer 0 (lastOf (some c) u) v :=
      fun enough => ih enough cut.of_cons
    rw [List.length_cons] at enough
    cases skip with
    | succ skip => exact step (Nat.le_of_succ_le_succ enough)
    | zero =>
      have euler : standsAlone ['e'] before (c :: u ++ v) = _ :=
        standsAlone_append (forall_mem_of_all (by decide)) (by simp) before (List.cons_ne_nil c u) cut
      have last : standsAlone ['a', 'n', 's'] before (c :: u ++ v) = _ :=
        standsAlone_append (forall_mem_of_all (by decide)) (by simp) before (List.cons_ne_nil c u) cut
      rw [List.cons_append] at euler last
      simp only [List.cons_append, substitute, euler, last, step (Nat.zero_le _), lastOf]
      split
      · rw [List.append_assoc]
      · split
        · rfl
        · split
          · rw [List.append_assoc]
          · split
            · rename_i alone
              simp only [standsAlone, Bool.and_eq_true, List.isPrefixOf_iff_prefix] at alone
              have long := alone.1.2.length_le
              simp only [List.length_cons, List.length_nil] at long
              rw [step (by omega), List.append_assoc]
            · rfl

/-- A text in which nothing is replaced stays, whatever stands behind it. -/
theorem substitute_still_append {w : List Char} {before : Option Char} (h : still before w = true)
    (rest : List Char) :
    substitute answer 0 before (w ++ rest) = w ++ substitute answer 0 (lastOf before w) rest := by
  induction w generalizing before with
  | nil => rfl
  | cons c w ih =>
    simp only [still, Bool.and_eq_true, Bool.or_eq_true, Bool.not_eq_true', bne_iff_ne,
      List.contains_eq_mem, decide_eq_false_iff_not] at h
    obtain ⟨plain | ⟨⟨inside, pi⟩, power⟩, further⟩ := h
    · rw [List.cons_append, substitute_plain plain, ih further]
      rfl
    · rw [List.cons_append, substitute_inside pi power inside, ih further]
      rfl

theorem substitute_ne_nil (answer : Binary64) (before : Option Char) {text : List Char}
    (h : text ≠ []) : substitute answer 0 before text ≠ [] := by
  obtain ⟨c, rest, rfl⟩ := List.exists_cons_of_ne_nil h
  rw [substitute]
  split
  · exact List.cons_ne_nil _ _
  · split
    · exact List.cons_ne_nil _ _
    · split
      · exact List.cons_ne_nil _ _
      · split <;> exact List.cons_ne_nil _ _

/-- What stands at the end was there before replacing, unless it ends a literal or a power sign. -/
theorem getLast?_of_substitute {d : Char} (literal : d ≠ ')') (power : d ≠ '*') {skip : Nat}
    {before : Option Char} {text : List Char}
    (h : (substitute answer skip before text).getLast? = some d) : text.getLast? = some d := by
  induction text generalizing skip before with
  | nil => cases h
  | cons c rest ih =>
    have literal : ∀ x, (enclosedLiteral x).getLast? ≠ some d := by
      intro x
      rw [enclosedLiteral, List.getLast?_concat]
      exact fun same => literal (Option.some.inj same).symm
    have power : ['*', '*'].getLast? ≠ some d := fun same => power (Option.some.inj same).symm
    cases skip with
    | succ skip => exact getLast?_of_cons (ih h)
    | zero =>
      rw [substitute] at h
      split at h
      · exact getLast?_of_replaced (literal _) ih h
      · split at h
        · exact getLast?_of_replaced power ih h
        · split at h
          · exact getLast?_of_replaced (literal _) ih h
          · split at h
            · exact getLast?_of_replaced (literal _) ih h
            · exact getLast?_of_kept (substitute_ne_nil answer (some c)) ih h

end Substitution

/-! ## Calls -/

/-- No opening of a call runs from the first piece into the second one. -/
def NoCallAcross (u v : List Char) : Prop :=
  (∀ c, u.getLast? = some c → isNameChar c = false) ∨
    ∀ c, v.head? = some c → isNameChar c = false ∧ c ≠ '('

theorem NoCallAcross.of_cons {c : Char} {u v : List Char} (h : NoCallAcross (c :: u) v) :
    NoCallAcross u v :=
  h.imp_left forall_getLast?_of_cons

theorem SurfaceFunction.isNameChar_name (f : SurfaceFunction) :
    ∀ c ∈ f.name, isNameChar c = true := by
  cases f <;> exact forall_mem_of_all (by decide)

/-- Where the opening of a call is cut, it runs from one piece into the other. -/
theorem not_noCallAcross {f : SurfaceFunction} {x y rest : List Char} (nonempty : x ≠ [])
    (name : f.name = x ++ y) : ¬ NoCallAcross x (y ++ '(' :: rest) := by
  have names := f.isNameChar_name
  rw [name] at names
  rintro (ends | starts)
  · obtain ⟨front, c, rfl⟩ := List.eq_nil_or_concat x |>.resolve_left nonempty
    have other := ends c (by simp)
    rw [names c (by simp)] at other
    cases other
  · cases y with
    | nil => exact (starts '(' rfl).2 rfl
    | cons c y =>
      have other := (starts c rfl).1
      rw [names c (by simp)] at other
      cases other

/-- A call is found in the first piece without the second one. -/
theorem callAt?_append (before : Option Char) {u v : List Char} (nonempty : u ≠ [])
    (cut : NoCallAcross u v) :
    SurfaceFunction.callAt? before (u ++ v) = SurfaceFunction.callAt? before u := by
  cases short : SurfaceFunction.callAt? before u with
  | some f =>
    obtain ⟨boundary, rest, rfl⟩ := callAt?_eq_some short
    rw [List.append_assoc, List.cons_append, callAt?_name f boundary]
  | none =>
    cases long : SurfaceFunction.callAt? before (u ++ v) with
    | none => rfl
    | some f =>
      -- the call would have to end in the second piece, and so to run across the cut
      obtain ⟨boundary, rest, same⟩ := callAt?_eq_some long
      rcases List.append_eq_append_iff.1 same with ⟨x, name, rfl⟩ | ⟨x, rfl, behind⟩
      · exact absurd cut (not_noCallAcross nonempty name)
      · cases x with
        | nil =>
          rw [List.nil_append] at behind
          rw [List.append_nil, ← behind] at cut
          rw [List.append_nil] at nonempty
          exact absurd cut (not_noCallAcross (y := []) nonempty (List.append_nil _).symm)
        | cons c x =>
          rw [List.cons_append, List.cons.injEq] at behind
          rw [← behind.1, callAt?_name f boundary] at short
          cases short

/-- The parentheses that are open behind a text. -/
def openBehind (opened : List Bool) (skip : Nat) (before : Option Char) : List Char → List Bool
  | [] => opened
  | c :: rest =>
    match skip with
    | skip + 1 => openBehind opened skip (some c) rest
    | 0 =>
      match SurfaceFunction.callAt? before (c :: rest) with
      | some f => openBehind (f.isAngular :: opened) f.name.length (some c) rest
      | none =>
        if c = '(' then openBehind (false :: opened) 0 (some c) rest
        else if c = ')' then openBehind opened.tail 0 (some c) rest
        else openBehind opened 0 (some c) rest

theorem expandOnward_append {mode : AngleMode} {opened : List Bool} {skip : Nat}
    {before : Option Char} {u v : List Char} (enough : skip ≤ u.length) (cut : NoCallAcross u v) :
    expandOnward mode opened skip before (u ++ v) =
      expandOnward mode opened skip before u ++
        expandOnward mode (openBehind opened skip before u) 0 (lastOf before u) v := by
  induction u generalizing opened skip before with
  | nil =>
    obtain rfl : skip = 0 := Nat.le_zero.1 enough
    rfl
  | cons c u ih =>
    have step : ∀ {opened : List Bool} {skip : Nat}, skip ≤ u.length →
        expandOnward mode opened skip (some c) (u ++ v) =
          expandOnward mode opened skip (some c) u ++
            expandOnward mode (openBehind opened skip (some c) u) 0 (lastOf (some c) u) v :=
      fun enough => ih enough cut.of_cons
    rw [List.length_cons] at enough
    cases skip with
    | succ skip => exact step (Nat.le_of_succ_le_succ enough)
    | zero =>
      have call := callAt?_append before (List.cons_ne_nil c u) cut
      rw [List.cons_append] at call
      simp only [List.cons_append, expandOnward, openBehind, call, lastOf]
      cases found : SurfaceFunction.callAt? before (c :: u) with
      | some f =>
        obtain ⟨-, rest, same⟩ := callAt?_eq_some found
        have length := congrArg List.length same
        simp only [List.length_cons, List.length_append] at length
        simp only [step (show f.name.length ≤ u.length by omega), List.append_assoc]
      | none =>
        simp only [step (Nat.zero_le _)]
        split
        · rfl
        · split
          · rw [List.cons_append, List.append_assoc]
          · rfl

theorem expandOnward_ne_nil (mode : AngleMode) (opened : List Bool) (before : Option Char)
    {text : List Char} (h : text ≠ []) : expandOnward mode opened 0 before text ≠ [] := by
  obtain ⟨c, rest, rfl⟩ := List.exists_cons_of_ne_nil h
  rw [expandOnward]
  split
  · rename_i f found
    cases mode <;> cases f <;> exact List.cons_ne_nil _ _
  · split
    · exact List.cons_ne_nil _ _
    · split <;> exact List.cons_ne_nil _ _

/-- An opening ends in a parenthesis or in a comma and a blank. -/
theorem SurfaceFunction.opening_ends (mode : AngleMode) (f : SurfaceFunction) :
    (∃ front, f.opening mode = front ++ ['(']) ∨ ∃ front, f.opening mode = front ++ [',', ' '] := by
  cases f with
  | powE =>
    right
    cases mode <;> exact ⟨"pow(".toList ++ enclosedLiteral .euler, rfl⟩
  | pow10 => cases mode <;> exact .inr ⟨"pow(10".toList, rfl⟩
  | _ =>
    left
    cases mode <;> exact List.getLast?_eq_some_iff.1 rfl

/-- A mark of a power of ten at the end was there before calls were expanded. -/
theorem getLast?_of_expandOnward {mode : AngleMode} {opened : List Bool} {skip : Nat}
    {before : Option Char} {text : List Char}
    (h : (expandOnward mode opened skip before text).getLast? = some 'E') :
    text.getLast? = some 'E' := by
  induction text generalizing opened skip before with
  | nil => cases h
  | cons c rest ih =>
    cases skip with
    | succ skip => exact getLast?_of_cons (ih h)
    | zero =>
      rw [expandOnward] at h
      split at h
      · rename_i f found
        refine getLast?_of_replaced ?_ ih h
        rcases f.opening_ends mode with ⟨front, same⟩ | ⟨front, same⟩ <;> simp [same]
      · split at h
        · rename_i opening
          have other : [c].getLast? ≠ some 'E' := by simp [opening]
          exact getLast?_of_replaced other ih h
        · split at h
          · rw [← List.cons_append] at h
            refine getLast?_of_replaced ?_ ih h
            rename_i closing
            unfold AngleMode.closing
            split <;> simp [closing]
          · exact getLast?_of_kept (expandOnward_ne_nil mode opened (some c)) ih h

end Calculator
