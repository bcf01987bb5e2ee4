import Calculator.Proofs.Degrees.Words
import Calculator.Proofs.Grouping.Regrouped

/-!
# A blank before a parenthesis

Blanks between lexemes are passed over, but a call of a surface function is expanded only where the
parenthesis stands right behind the name. So a blank in front of a parenthesis changes nothing unless
a surface function stands there that is expanded to something else than itself: without its expansion
the name means a primitive of that name, or nothing.
-/
namespace Calculator

/-- The word stands at the end of the text, after a boundary. -/
def EndsIn (word : List Char) (before : Option Char) (text : List Char) : Prop :=
  ∃ front, text = front ++ word ∧ isBoundary (lastOf before front) = true

theorem EndsIn.of_cons {word : List Char} {before : Option Char} {c : Char} {text : List Char}
    (h : EndsIn word (some c) text) : EndsIn word before (c :: text) := by
  obtain ⟨front, rfl, boundary⟩ := h
  exact ⟨c :: front, rfl, boundary⟩

/-- Expanding leaves a call of the function as it is. -/
def SurfaceFunction.IsKept (mode : AngleMode) (f : SurfaceFunction) : Prop :=
  f.opening mode = f.name ++ ['(']

theorem SurfaceFunction.isKept_iff (mode : AngleMode) (f : SurfaceFunction) :
    f.IsKept mode ↔ f = .sqrt ∨ mode = .radians ∧ f ∈ [.sin, .cos, .tan] := by
  unfold IsKept
  cases mode <;> cases f <;> decide

/-- Of the functions of angles none is left as it is in degrees. -/
theorem SurfaceFunction.IsKept.closing_eq {mode : AngleMode} {f : SurfaceFunction}
    (kept : f.IsKept mode) : mode.closing f.isAngular = [] := by
  rcases (f.isKept_iff mode).1 kept with rfl | ⟨rfl, -⟩
  · cases mode <;> rfl
  · rfl

/-! ## Words behind which the replaced text ends -/

section Substitution

variable {answer : Binary64}

/-- Characters of names come from themselves only. -/
theorem eq_of_substitute_names {before : Option Char} {text x : List Char}
    (names : ∀ c ∈ x, isNameChar c = true) (h : substitute answer 0 before text = x) : text = x := by
  induction text generalizing before x with
  | nil => exact h
  | cons c rest ih =>
    have absent : ∀ {d : Char} {behind : List Char}, isNameChar d = false → x ≠ d :: behind := by
      rintro d behind other rfl
      have name := names d List.mem_cons_self
      rw [other] at name
      cases name
    have step : Replaces answer before c rest := replaces before c rest
    rcases step with ⟨y, skip, same, -⟩ | power | same
    · rw [same, enclosedLiteral_append] at h
      exact absurd h.symm (absent (by decide))
    · rw [power, substitute_power] at h
      exact absurd h.symm (absent (by decide))
    · rw [same] at h
      rw [← h] at names
      have further := ih (fun d member => names d (List.mem_cons_of_mem _ member)) rfl
      rwa [← further] at h

/-- A text that ends in a name behind something else than a name ends in it there. -/
theorem append_eq_append_names {u w front x : List Char} {c : Char} (last : u.getLast? = some c)
    (other : isNameChar c = false) (names : ∀ d ∈ x, isNameChar d = true)
    (h : u ++ w = front ++ x) : ∃ further, front = u ++ further ∧ w = further ++ x := by
  rcases List.append_eq_append_iff.1 h with ⟨y, same, behind⟩ | ⟨y, same, behind⟩
  · exact ⟨y, same, behind⟩
  · -- otherwise the character that ends no name would stand in the name
    cases y with
    | nil =>
      rw [List.append_nil] at same
      exact ⟨[], by rw [same, List.append_nil], by rw [List.nil_append]; exact behind.symm⟩
    | cons d y =>
      have member : c ∈ x := by
        rw [same, List.getLast?_append, List.getLast?_cons] at last
        rw [behind]
        refine List.mem_append_left _ (List.mem_of_getLast? ?_)
        rw [List.getLast?_cons]
        exact last
      have name := names c member
      rw [other] at name
      cases name

/-- A name behind which the replaced text ends stood there before. -/
theorem EndsIn.of_substitute {x : List Char} (names : ∀ d ∈ x, isNameChar d = true)
    (letter : ∃ d, x.head? = some d ∧ isNameStart d = true) {skip : Nat}
    {before before' : Option Char} {text : List Char}
    (agree : ∀ d, (text.drop skip).head? = some d → isNameStart d = true →
      isBoundary before' = true → skip = 0 ∧ isBoundary before = true)
    (h : EndsIn x before' (substitute answer skip before text)) : EndsIn x before text := by
  induction text generalizing skip before before' with
  | nil =>
    obtain ⟨front, same, -⟩ := h
    obtain ⟨d, head, -⟩ := letter
    rw [(List.append_eq_nil_iff.1 same.symm).2] at head
    cases head
  | cons c rest ih =>
    -- behind what a character is replaced by, the name stands in what is left of the text
    have behind : ∀ {u : List Char} {skip : Nat} {d : Char}, u.getLast? = some d →
        isNameChar d = false → (∀ e, (rest.drop skip).head? = some e → isNameStart e = true →
          skip = 0 ∧ isBoundary (some c) = true) →
        EndsIn x before' (u ++ substitute answer skip (some c) rest) → EndsIn x before (c :: rest) := by
      rintro u skip d last other agree ⟨front, same, boundary⟩
      obtain ⟨further, rfl, written⟩ := append_eq_append_names last other names same
      have inner : EndsIn x (some d) (substitute answer skip (some c) rest) := by
        refine ⟨further, written, ?_⟩
        rwa [lastOf_append, lastOf_eq before', last] at boundary
      exact (ih (fun e head start _ => agree e head start) inner).of_cons
    cases skip with
    | succ skip =>
      refine (ih (fun d head start boundary => ?_) h).of_cons
      cases (agree d head start boundary).1
    | zero =>
      have step : Replaces answer before c rest := replaces before c rest
      rcases step with ⟨y, skip, same, closed⟩ | power | same
      · rw [same] at h
        exact behind (List.getLast?_concat) (by decide) closed h
      · rw [power, substitute_power] at h
        have stars : ['*', '*'].getLast? = some '*' := rfl
        refine behind stars (by decide) (fun _ _ _ => ⟨rfl, ?_⟩) (by rw [power]; exact h)
        rw [power]
        decide
      · rw [same] at h
        obtain ⟨front, written, boundary⟩ := h
        cases front with
        | nil =>
          rw [List.nil_append] at written
          obtain ⟨d, head, start⟩ := letter
          rw [← written] at head
          cases head
          have further : ∀ e ∈ substitute answer 0 (some c) rest, isNameChar e = true :=
            fun e member => names e (by rw [← written]; exact List.mem_cons_of_mem _ member)
          refine ⟨[], ?_, (agree c rfl start boundary).2⟩
          rw [← written, ← eq_of_substitute_names further rfl]
          rfl
        | cons d front =>
          rw [List.cons_append, List.cons.injEq] at written
          obtain ⟨rfl, written⟩ := written
          exact (ih (fun _ _ _ boundary => ⟨rfl, boundary⟩) ⟨front, written, boundary⟩).of_cons

end Substitution

theorem SurfaceFunction.exists_letter (f : SurfaceFunction) :
    ∃ d, f.name.head? = some d ∧ isNameStart d = true := by
  cases f <;> exact ⟨_, rfl, by decide⟩

/-- Blanks in front of a text leave a boundary at its end. -/
theorem isBoundary_lastOf_blanks {blanks : List Char} (blank : ∀ c ∈ blanks, isBlank c = true)
    {text : List Char} (boundary : isBoundary (lastOf none text) = true) :
    isBoundary (lastOf none (blanks ++ text)) = true := by
  rw [lastOf_append]
  cases text with
  | cons c text => exact boundary
  | nil =>
    rw [lastOf, lastOf_eq]
    cases last : blanks.getLast? with
    | none => rfl
    | some c => exact isBoundary_of_isBlank (blank c (List.mem_of_getLast? last))

/-- A word behind the blanks in front stands at the end of the whole text. -/
theorem EndsIn.of_dropWhile {word : List Char} {text : List Char}
    (h : EndsIn word none (text.dropWhile isBlank)) : EndsIn word none text := by
  obtain ⟨front, same, boundary⟩ := h
  have split := List.takeWhile_append_dropWhile (p := isBlank) (l := text)
  rw [same, ← List.append_assoc] at split
  exact ⟨text.takeWhile isBlank ++ front, split.symm,
    isBoundary_lastOf_blanks (List.all_eq_true.1 List.all_takeWhile) boundary⟩

/-! ## Calls -/

theorem headD_closing {mode : AngleMode} {opened opened' : List Bool}
    (same : opened.map mode.closing = opened'.map mode.closing) :
    mode.closing (opened.headD false) = mode.closing (opened'.headD false) := by
  cases opened with
  | nil => rw [List.map_eq_nil_iff.1 same.symm]
  | cons angular opened =>
    cases opened' with
    | nil => cases same
    | cons angular' opened' =>
      rw [List.map_cons, List.map_cons, List.cons.injEq] at same
      exact same.1

/-- The second pass knows open parentheses only by what closing them adds. -/
theorem expandOnward_congr {mode : AngleMode} {opened opened' : List Bool}
    (same : opened.map mode.closing = opened'.map mode.closing) (skip : Nat) (before : Option Char)
    (text : List Char) :
    expandOnward mode opened skip before text = expandOnward mode opened' skip before text := by
  induction text generalizing opened opened' skip before with
  | nil => rfl
  | cons c rest ih =>
    have inner : ∀ angular, (angular :: opened).map mode.closing =
        (angular :: opened').map mode.closing := fun angular => by
      rw [List.map_cons, List.map_cons, same]
    have outer : opened.tail.map mode.closing = opened'.tail.map mode.closing := by
      rw [List.map_tail, List.map_tail, same]
    cases skip with
    | succ skip => exact ih same skip (some c)
    | zero =>
      rw [expandOnward, expandOnward]
      cases SurfaceFunction.callAt? before (c :: rest) with
      | some f => simp only [ih (inner f.isAngular)]
      | none => simp only [ih (inner false), ih outer, ih same, headD_closing same]

/-- A text without parentheses before a blank has no call. -/
theorem plain_of_no_parenthesis {w : List Char} (h : ∀ c ∈ w, c ≠ '(' ∧ c ≠ ')')
    (before : Option Char) (rest : List Char) : Plain (' ' :: rest) before w := by
  induction w generalizing before with
  | nil => trivial
  | cons c w ih =>
    obtain ⟨opening, closing⟩ := h c List.mem_cons_self
    refine ⟨?_, opening, closing, ih (fun d member => h d (List.mem_cons_of_mem _ member)) (some c)⟩
    have cut : NoCallAcross (c :: w) (' ' :: rest) := .inr fun d head => by
      cases head
      decide
    rw [callAt?_append before (List.cons_ne_nil c w) cut]
    cases found : SurfaceFunction.callAt? before (c :: w) with
    | none => rfl
    | some f =>
      obtain ⟨-, behind, same⟩ := callAt?_eq_some found
      exact absurd rfl (h '(' (by rw [same]; simp)).1

theorem expandOnward_blank_opening {mode : AngleMode} {opened : List Bool} (before : Option Char)
    (rest : List Char) : expandOnward mode opened 0 before (' ' :: '(' :: rest) =
      ' ' :: '(' :: expandOnward mode (false :: opened) 0 (some '(') rest := by
  rw [← expandOnward_opening (some ' ')]
  exact expandOnward_plain (u := [' '])
    ⟨callAt?_eq_none _ (.inl (by decide)), by decide, by decide, trivial⟩

/-- A call that starts in a text before a parenthesis starts and ends there, or it is the text. -/
theorem eq_name_of_callAt? {before : Option Char} {text rest : List Char} {f : SurfaceFunction}
    (short : SurfaceFunction.callAt? before text = none)
    (long : SurfaceFunction.callAt? before (text ++ '(' :: rest) = some f) : text = f.name := by
  obtain ⟨boundary, further, written⟩ := callAt?_eq_some long
  rcases List.append_eq_append_iff.1 written with ⟨y, same, behind⟩ | ⟨y, same, behind⟩
  · cases y with
    | nil => rw [same, List.append_nil]
    | cons c y =>
      have name := f.isNameChar_name c (by rw [same]; simp)
      rw [← List.head_eq_of_cons_eq behind] at name
      cases name
  · cases y with
    | nil => rw [same, List.append_nil]
    | cons c y =>
      rw [same, ← List.head_eq_of_cons_eq behind, callAt?_name f boundary] at short
      cases short

/-- The canonical forms differ in a blank only, if no function that is expanded to something else
stands in front of it. -/
theorem expandOnward_spaced {mode : AngleMode} {opened opened' : List Bool}
    (same : opened.map mode.closing = opened'.map mode.closing) {skip : Nat} {before : Option Char}
    {text : List Char} (enough : skip ≤ text.length)
    (kept : ∀ f : SurfaceFunction, EndsIn f.name before text → f.IsKept mode) (rest : List Char) :
    ∃ front behind,
      expandOnward mode opened skip before (text ++ '(' :: rest) = front ++ '(' :: behind ∧
      expandOnward mode opened' skip before (text ++ ' ' :: '(' :: rest) =
        front ++ ' ' :: '(' :: behind := by
  have inner : ∀ {opened opened' : List Bool} (angular : Bool),
      opened.map mode.closing = opened'.map mode.closing →
      (angular :: opened).map mode.closing = (angular :: opened').map mode.closing :=
    fun angular same => by rw [List.map_cons, List.map_cons, same]
  induction text generalizing opened opened' skip before with
  | nil =>
    obtain rfl : skip = 0 := Nat.le_zero.1 enough
    refine ⟨[], expandOnward mode (false :: opened) 0 (some '(') rest,
      expandOnward_opening before rest, ?_⟩
    rw [expandOnward_congr (inner false same)]
    exact expandOnward_blank_opening before rest
  | cons c text ih =>
    have step : ∀ {opened opened' : List Bool} {skip : Nat} (first : List Char),
        opened.map mode.closing = opened'.map mode.closing → skip ≤ text.length →
        ∃ front behind,
          first ++ expandOnward mode opened skip (some c) (text ++ '(' :: rest) =
            front ++ '(' :: behind ∧
          first ++ expandOnward mode opened' skip (some c) (text ++ ' ' :: '(' :: rest) =
            front ++ ' ' :: '(' :: behind := by
      intro opened opened' skip first same enough
      obtain ⟨front, behind, left, right⟩ := ih same enough fun f ends => kept f ends.of_cons
      exact ⟨first ++ front, behind, by rw [left, List.append_assoc],
        by rw [right, List.append_assoc]⟩
    rw [List.length_cons] at enough
    cases skip with
    | succ skip => exact step [] same (Nat.le_of_succ_le_succ enough)
    | zero =>
      have cut : NoCallAcross (c :: text) (' ' :: '(' :: rest) := .inr fun d head => by
        cases head
        decide
      have spaced := callAt?_append before (List.cons_ne_nil c text) cut
      cases short : SurfaceFunction.callAt? before (c :: text) with
      | some f =>
        -- the call lies in front of the parenthesis and is expanded on both sides
        obtain ⟨boundary, further, written⟩ := callAt?_eq_some short
        have long : SurfaceFunction.callAt? before (c :: text ++ '(' :: rest) = some f := by
          rw [written, List.append_assoc, List.cons_append, callAt?_name f boundary]
        have length := congrArg List.length written
        simp only [List.length_cons, List.length_append] at length
        rw [short] at spaced
        rw [List.cons_append] at long spaced
        rw [List.cons_append, List.cons_append, expandOnward, expandOnward, long, spaced]
        exact step (f.opening mode) (inner f.isAngular same) (by omega)
      | none =>
        cases long : SurfaceFunction.callAt? before (c :: text ++ '(' :: rest) with
        | some f =>
          -- the call is found without the blank only, and is one of those that stay
          have whole := eq_name_of_callAt? short long
          obtain ⟨boundary, -⟩ := callAt?_eq_some long
          have alone := kept f ⟨[], whole, boundary⟩
          have plain : Plain (' ' :: '(' :: rest) before f.name :=
            plain_of_no_parenthesis (fun d member => by
              constructor <;> rintro rfl <;> exact absurd (f.isNameChar_name _ member) (by decide))
              before _
          have closing : (false :: opened').map mode.closing =
              (f.isAngular :: opened).map mode.closing := by
            rw [List.map_cons, List.map_cons, alone.closing_eq, AngleMode.closing_false, same]
          refine ⟨f.name, expandOnward mode (f.isAngular :: opened) 0 (some '(') rest, ?_, ?_⟩
          · rw [whole, expandOnward_call f boundary, alone, List.append_assoc]
            rfl
          · rw [whole, expandOnward_plain plain, expandOnward_blank_opening,
              expandOnward_congr closing]
        | none =>
          rw [short] at spaced
          rw [List.cons_append] at long spaced
          rw [List.cons_append, List.cons_append, expandOnward, expandOnward, long, spaced]
          by_cases opening : c = '('
          · simp only [if_pos opening]
            exact step [c] (inner false same) (Nat.zero_le _)
          · by_cases closing : c = ')'
            · have outer : opened.tail.map mode.closing = opened'.tail.map mode.closing := by
                rw [List.map_tail, List.map_tail, same]
              simp only [if_neg opening, if_pos closing, headD_closing same]
              exact step (c :: mode.closing (opened'.headD false)) outer (Nat.zero_le _)
            · simp only [if_neg opening, if_neg closing]
              exact step [c] same (Nat.zero_le _)

/-! ## Expressions -/

/-- Before a blank or a parenthesis both canonical forms are read into the same lexemes. -/
theorem readRegrouped_spaced (front behind : List Char) :
    ReadRegrouped .standard (front ++ ' ' :: '(' :: behind) (front ++ '(' :: behind) ∧
      ReadRegrouped .standard (front ++ '(' :: behind) (front ++ ' ' :: '(' :: behind) := by
  have blank : Leads (' ' :: '(' :: behind) [] ('(' :: behind) := .blank (by decide) (.here _)
  have stops : ∀ c ∈ ['(', ' '], ∀ rest, Inert (c :: rest) ∧ StopsName (c :: rest) := by
    intro c member rest
    have other : digitValue? c = none ∧ c ∉ ['.', 'E', '+', '-', '*'] ∧ isNameChar c = false := by
      simp only [List.mem_cons, List.not_mem_nil, or_false] at member
      rcases member with rfl | rfl <;> decide
    refine ⟨inert_cons rest other.1 other.2.1, fun d head => ?_⟩
    cases head
    exact other.2.2
  have parenthesis := stops '(' (by decide) behind
  have space := stops ' ' (by decide) ('(' :: behind)
  rcases (readAlone_of_inert front).leads with ⟨lexemes, leads⟩ | refused
  · have first := (leads _ space).trans blank
    have second := leads _ parenthesis
    rw [List.append_nil] at first
    rcases spells_or_unreadable ('(' :: behind) with ⟨further, spelled⟩ | refused
    · have left := first.spells spelled
      have right := second.spells spelled
      exact ⟨.read left right (.refl true _), .read right left (.refl true _)⟩
    · have left := first.unreadable refused
      have right := second.unreadable refused
      exact ⟨.refused left right, .refused right left⟩
  · have left := refused _ space
    have right := refused _ parenthesis
    exact ⟨.refused left right, .refused right left⟩

/-- A blank in front of a parenthesis is trimmed, or stands between what it stands between. -/
theorem trimBlanks_spaced (text rest : List Char) :
    (trimBlanks (text ++ ' ' :: '(' :: rest) = trimBlanks (text ++ '(' :: rest)) ∨
      trimBlanks (text ++ '(' :: rest) = text.dropWhile isBlank ++ '(' :: dropBlankEnd rest ∧
      trimBlanks (text ++ ' ' :: '(' :: rest) =
        text.dropWhile isBlank ++ ' ' :: '(' :: dropBlankEnd rest := by
  have trimmed : ∀ u, trimBlanks (u ++ '(' :: rest) =
      u.dropWhile isBlank ++ '(' :: dropBlankEnd rest := by
    intro u
    have opening : trimBlanks (u ++ (['('] ++ rest)) = _ :=
      trimBlanks_append u (by decide) (fun d last => by cases last; decide) rest
    exact opening
  have spaced := trimmed (text ++ [' '])
  rw [List.append_assoc, List.dropWhile_append] at spaced
  cases empty : text.dropWhile isBlank with
  | nil =>
    left
    rw [empty] at spaced
    rw [trimmed text, empty]
    exact spaced
  | cons c front =>
    right
    rw [empty, List.isEmpty_cons, if_neg Bool.false_ne_true, List.append_assoc] at spaced
    exact ⟨by rw [trimmed text, empty], spaced⟩

/-- A blank in front of a parenthesis does not change the outcome, in any angle mode and with any
last answer, if the expression ends there in no surface function but those whose calls are left as
they are. -/
theorem evaluate_blank_before_opening (text rest : List Char) (mode : AngleMode) (answer : Binary64)
    (short : (text ++ '(' :: rest).length < lengthLimit)
    (kept : ∀ f : SurfaceFunction, EndsIn f.name none text → f.IsKept mode) :
    (evaluate (text ++ ' ' :: '(' :: rest) mode answer).mapError Fault.kind =
      (evaluate (text ++ '(' :: rest) mode answer).mapError Fault.kind := by
  have left : evaluate (text ++ ' ' :: '(' :: rest) mode answer =
      evaluateCanonicalWith .standard (canonical mode answer (text ++ ' ' :: '(' :: rest)) := by
    have fits : ¬ lengthLimit < (text ++ ' ' :: '(' :: rest).length := by
      simp only [List.length_append, List.length_cons] at short ⊢
      omega
    rw [evaluate, evaluateWith, canonicalize, if_neg fits, ok_bind]
  have right : evaluate (text ++ '(' :: rest) mode answer =
      evaluateCanonicalWith .standard (canonical mode answer (text ++ '(' :: rest)) := by
    rw [evaluate, evaluateWith, canonicalize, if_neg (by omega), ok_bind]
  rw [left, right]
  rcases trimBlanks_spaced text rest with same | ⟨trimmed, spaced⟩
  · rw [canonical, canonical, same]
  · have cut : ∀ {c : Char} {behind : List Char}, isBoundary (some c) = true →
        NoWordAcross (text.dropWhile isBlank) (c :: behind) := fun boundary => .inr boundary
    have names : ∀ f : SurfaceFunction,
        EndsIn f.name none (substitute answer 0 none (text.dropWhile isBlank)) → f.IsKept mode :=
      fun f ends => kept f (EndsIn.of_dropWhile (ends.of_substitute f.isNameChar_name
        f.exists_letter fun _ _ _ _ => ⟨rfl, rfl⟩))
    have none : ([] : List Bool).map mode.closing = [].map mode.closing := rfl
    obtain ⟨front, behind, first, second⟩ := expandOnward_spaced none (Nat.zero_le _) names
      (substitute answer 0 (some '(') (dropBlankEnd rest))
    rw [canonical, canonical, trimmed, spaced, expandCalls_eq_expandOnward,
      expandCalls_eq_expandOnward, substitute_append (Nat.zero_le _) (cut (by decide)),
      substitute_append (Nat.zero_le _) (cut (by decide)), substitute_plain (by decide),
      substitute_plain (by decide), substitute_plain (by decide), first, second]
    have both := readRegrouped_spaced front behind
    exact both.1.matches.kind_eq_of_both both.2.matches

/-- Behind a square root the blank does no harm. -/
theorem evaluate_blank_after_sqrt :
    (evaluate "2sqrt (4)".toList .degrees .zero).mapError Fault.kind =
      (evaluate "2sqrt(4)".toList .degrees .zero).mapError Fault.kind := by
  refine evaluate_blank_before_opening "2sqrt".toList "4)".toList .degrees .zero (by decide) ?_
  rintro f ⟨front, same, -⟩
  have ends : f.name <:+ "2sqrt".toList := ⟨front, same.symm⟩
  cases f with
  | sqrt => rfl
  | _ => exact absurd ends (by decide)

/-- Behind a logarithm it changes the base, since the primitive `log` is the natural logarithm. -/
theorem evaluate_blank_after_log :
    "log(100)".toList.length < lengthLimit ∧
      (evaluate "log (100)".toList .radians .zero).mapError Fault.kind ≠
        (evaluate "log(100)".toList .radians .zero).mapError Fault.kind := by
  have values : (evaluate "log (100)".toList .radians .zero).toOption ≠
      (evaluate "log(100)".toList .radians .zero).toOption := by decide +kernel
  have kept : ∀ step : Except Fault Binary64,
      (step.mapError Fault.kind).toOption = step.toOption := by
    intro step
    cases step <;> rfl
  refine ⟨by decide, fun same => values ?_⟩
  rw [← kept, same, kept]

end Calculator
