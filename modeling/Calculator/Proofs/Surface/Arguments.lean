import Calculator.Proofs.Grammar.Balance
import Calculator.Proofs.Grammar.Inside
import Calculator.Proofs.Surface.Meaning
import Calculator.Proofs.Surface.Spelled

/-!
# Expressions as arguments of calls

An expression with a value is balanced in its canonical form. So in parentheses it becomes what it
becomes by itself, whether the parentheses are those of a call of an angle or not, and the call of
a surface function around it has the value that the function has at the value of the expression.
-/
namespace Calculator

/-! ## Open parentheses -/

/-- Behind a text that closes none but inner parentheses the search for the outermost one goes on. -/
theorem closingOffset?_append {u : List Char} {depth inner : Nat}
    (h : depthBehind? depth u = some inner) (rest : List Char) :
    closingOffset? (depth + 1) (u ++ rest) =
      (closingOffset? (inner + 1) rest).map (· + u.length) := by
  induction u generalizing depth with
  | nil =>
    cases h
    simp
  | cons c u ih =>
    have onward : ∀ found : Option Nat, (found.map (· + u.length)).map (· + 1) =
        found.map (· + (c :: u).length) := fun found => Option.map_map ..
    rw [depthBehind?] at h
    rw [List.cons_append, closingOffset?]
    split at h
    · rename_i opening
      rw [if_pos opening, ih h, onward]
    · rename_i opening
      rw [if_neg opening]
      split at h
      · rename_i closing
        obtain ⟨nonzero, h⟩ := Option.ite_none_left_eq_some.1 h
        obtain ⟨further, rfl⟩ := Nat.exists_eq_succ_of_ne_zero nonzero
        rw [if_pos closing, if_neg (by omega), ← onward]
        exact congrArg _ (ih h)
      · rename_i closing
        rw [if_neg closing, ih h, onward]

/-- The outermost parenthesis is not closed in a text that closes none but inner ones. -/
theorem insertBehind_of_depth {u : List Char} {depth inner : Nat}
    (h : depthBehind? depth u = some inner) (inserted rest : List Char) :
    insertBehind (depth + 1) inserted (u ++ rest) =
      u ++ insertBehind (inner + 1) inserted rest :=
  insertBehind_append (closingOffset?_append h rest) inserted

theorem depthBehind?_enclosedLiteral (x : Binary64) (depth : Nat) :
    depthBehind? depth (enclosedLiteral x) = some depth := by
  have inside := depthBehind?_plain (literal_plain x).1 (depth + 1)
  have whole : depthBehind? depth (enclosedLiteral x) =
      depthBehind? (depth + 1) (NumberFormat.literal.text x ++ [')']) := rfl
  rw [whole, depthBehind?_append, inside]
  rfl

/-- The opening of a call leaves open what its closing closes. -/
theorem SurfaceFunction.depthBehind?_opening (mode : AngleMode) (f : SurfaceFunction)
    (depth : Nat) : depthBehind? depth (f.opening mode) =
      some (depth + ((mode.closing f.isAngular).length + 1)) := by
  cases f with
  | powE =>
    have written : SurfaceFunction.opening mode .powE =
        "pow(".toList ++ (enclosedLiteral .euler ++ ", ".toList) := by
      cases mode <;> exact List.append_assoc _ _ _
    have behind : ∀ depth, depthBehind? depth (enclosedLiteral .euler ++ ", ".toList) =
        some depth := by
      intro depth
      rw [depthBehind?_append, depthBehind?_enclosedLiteral]
      rfl
    rw [written, depthBehind?_append, show depthBehind? depth "pow(".toList = some (depth + 1) from
      rfl, Option.bind_some, behind]
    cases mode <;> rfl
  | _ => cases mode <;> rfl

theorem AngleMode.depthBehind?_closing (mode : AngleMode) (angular : Bool) (depth : Nat)
    (rest : List Char) :
    depthBehind? ((mode.closing angular).length + 1 + depth)
        (')' :: (mode.closing angular ++ rest)) = depthBehind? depth rest := by
  unfold closing
  split
  · rw [show [')'].length + 1 + depth = depth + 2 by simp only [List.length]; omega]
    rfl
  · rw [show [].length + 1 + depth = depth + 1 by simp only [List.length]; omega]
    rfl

/-- The second pass knows how many parentheses its own text leaves open. -/
theorem levels_openBehind {mode : AngleMode} {opened : List Bool} {skip : Nat}
    {before : Option Char} {text : List Char} {depth : Nat}
    (h : depthBehind? (mode.levels opened) (expandOnward mode opened skip before text) =
      some depth) : mode.levels (openBehind opened skip before text) = depth := by
  induction text generalizing opened skip before with
  | nil => exact Option.some.inj h
  | cons c rest ih =>
    cases skip with
    | succ skip => exact ih h
    | zero =>
      rw [expandOnward] at h
      rw [openBehind]
      cases call : SurfaceFunction.callAt? before (c :: rest) with
      | some f =>
        simp only [call] at h ⊢
        refine ih ?_
        rw [depthBehind?_append, f.depthBehind?_opening] at h
        rw [AngleMode.levels, Nat.add_comm]
        exact h
      | none =>
        simp only [call] at h ⊢
        by_cases opening : c = '('
        · rw [if_pos opening] at h ⊢
          refine ih ?_
          rw [depthBehind?, if_pos opening] at h
          rw [AngleMode.levels, AngleMode.closing_false, Nat.add_comm]
          exact h
        · rw [if_neg opening] at h ⊢
          by_cases closing : c = ')'
          · rw [if_pos closing] at h ⊢
            subst closing
            cases opened with
            | nil => cases h
            | cons angular opened =>
              rw [AngleMode.levels, List.headD_cons, List.tail_cons,
                AngleMode.depthBehind?_closing] at h
              exact ih h
          · rw [if_neg closing] at h ⊢
            refine ih ?_
            rw [depthBehind?, if_neg opening, if_neg closing] at h
            exact h

/-- A text that is balanced when its calls are expanded leaves no parenthesis open. -/
theorem openBehind_of_balanced {mode : AngleMode} {before : Option Char} {text : List Char}
    (balanced : Balanced (expandOnward mode [] 0 before text)) : openBehind [] 0 before text = [] := by
  have levels : mode.levels (openBehind [] 0 before text) = 0 := levels_openBehind balanced
  cases found : openBehind [] 0 before text with
  | nil => rfl
  | cons inner opened =>
    rw [found, AngleMode.levels] at levels
    omega

/-! ## Canonical forms -/

section Canonical

variable {mode : AngleMode} {answer : Binary64} {opened : List Bool}

/-- What stands in front of a character becomes what it becomes alone, if no pass goes on with a
name there. -/
theorem canonicalBehind_append (u : List Char) {c : Char} (plain : c ∉ replacedStarts)
    (stop : isNameChar c = false) (opening : c ≠ '(') (rest : List Char) :
    canonicalBehind mode answer opened (u ++ c :: rest) =
      canonicalBehind mode answer opened u ++ canonicalBehind mode answer
        (openBehind opened 0 none (substitute answer 0 none u)) (c :: rest) := by
  have stops : ∀ rest, StopsName (c :: rest) := by
    intro rest d head
    cases head
    exact stop
  have word : NoWordAcross u (c :: rest) := (stops rest).apart _
  have call : NoCallAcross (substitute answer 0 none u) (substitute answer 0 none (c :: rest)) := by
    rw [substitute_plain plain]
    right
    intro d head
    cases head
    exact ⟨stop, opening⟩
  rw [canonicalBehind, substitute_append (Nat.zero_le _) word,
    substitute_apart ((stops rest).apart _), expandOnward_append (Nat.zero_le _) call,
    canonicalBehind, canonicalBehind, substitute_plain plain,
    expandOnward_apart ((stops _).apart _)]

theorem canonicalBehind_blanks {blanks : List Char} (blank : ∀ c ∈ blanks, isBlank c = true)
    (text : List Char) : canonicalBehind mode answer opened (blanks ++ text) =
      blanks ++ canonicalBehind mode answer opened text := by
  induction blanks with
  | nil => rfl
  | cons c blanks ih =>
    rw [List.cons_append, canonicalBehind_blank (blank c List.mem_cons_self),
      ih fun d member => blank d (List.mem_cons_of_mem _ member), List.cons_append]

/-- Blanks at the ends stay there. -/
theorem exists_canonicalBehind_eq (mode : AngleMode) (answer : Binary64) (text : List Char) :
    ∃ lead trail, (∀ c ∈ lead ++ trail, isBlank c = true) ∧
      canonicalBehind mode answer [] text = lead ++ canonical mode answer text ++ trail := by
  obtain ⟨lead, trail, whole, -, blank⟩ := exists_append_trimBlanks text
  have trimmed : canonicalBehind mode answer [] (trimBlanks text) = canonical mode answer text :=
    (expandCalls_eq_expandOnward mode 0 none _).symm
  have middle : canonicalBehind mode answer [] (trimBlanks text ++ trail) =
      canonical mode answer text ++ trail := by
    cases trail with
    | nil => rw [List.append_nil, List.append_nil, trimmed]
    | cons c trail =>
      have first : isBlank c = true := blank c (by simp)
      have plain := notMem_of_isBlank first
      simp only [List.mem_cons, List.mem_append, not_or] at plain
      have kept : ∀ opened, canonicalBehind mode answer opened (c :: trail ++ []) =
          c :: trail ++ [] := fun opened =>
        canonicalBehind_blanks (fun d member => blank d (List.mem_append_right _ member)) []
      rw [List.append_nil] at kept
      rw [canonicalBehind_append _ plain.2.2.1 (isNameChar_of_isBlank first) plain.1, kept, trimmed]
  refine ⟨lead, trail, blank, ?_⟩
  have front : canonicalBehind mode answer [] (lead ++ (trimBlanks text ++ trail)) = _ :=
    canonicalBehind_blanks (fun c member => blank c (List.mem_append_left _ member)) _
  rw [← whole, middle] at front
  rw [front, List.append_assoc]

/-- Up to the closing parenthesis a balanced argument becomes what it becomes by itself. -/
theorem canonicalBehind_argument {text : List Char}
    (balanced : Balanced (canonicalBehind mode answer [] text)) (angular : Bool)
    (rest : List Char) : canonicalBehind mode answer [angular] (text ++ ')' :: rest) =
      canonicalBehind mode answer [] text ++
        ')' :: (mode.closing angular ++ canonicalBehind mode answer [] rest) := by
  have outermost : ∀ text, canonicalBehind mode answer [angular] text =
      insertBehind 1 (mode.closing angular) (canonicalBehind mode answer [] text) :=
    fun text => expandOnward_outermost mode angular [] 0 none _
  have closed : openBehind [] 0 none (substitute answer 0 none text) = [] :=
    openBehind_of_balanced balanced
  rw [outermost, canonicalBehind_append text (by decide) (by decide) (by decide), closed,
    canonicalBehind_closing, List.headD_nil, AngleMode.closing_false, List.nil_append,
    List.tail_nil, insertBehind_of_depth balanced, insertBehind_outermost]

/-- A call of a balanced argument is expanded around the canonical form of the argument. -/
theorem canonical_call (f : SurfaceFunction) {text : List Char}
    (balanced : Balanced (canonicalBehind mode answer [] text)) :
    canonical mode answer (f.name ++ parenthesized text) =
      f.written mode (canonicalBehind mode answer [] text) := by
  have trimmed : trimBlanks (f.name ++ parenthesized text) = f.name ++ parenthesized text := by
    obtain ⟨start, rest, name, member⟩ := f.name_start
    have visible : isBlank start = false := by
      have letters : ∀ c ∈ callStarts, isBlank c = false := forall_mem_of_all (by decide)
      exact letters start member
    have ends : ∀ d, (start :: (rest ++ parenthesized text)).getLast? = some d →
        isBlank d = false := by
      intro d last
      rw [parenthesized, ← List.append_assoc, ← List.cons_append, List.getLast?_concat] at last
      cases last
      decide
    have kept := trimBlanks_append [] visible ends []
    rw [dropBlankEnd, List.append_nil] at kept
    rw [name]
    exact kept
  have call : canonicalBehind mode answer [] (f.name ++ '(' :: (text ++ [')'])) = _ :=
    f.canonicalBehind_eq
  rw [canonicalBehind_argument balanced f.isAngular []] at call
  rw [canonical, trimmed, expandCalls_eq_expandOnward, ← canonicalBehind, SurfaceFunction.written,
    f.closing_eq_isAngular, List.append_assoc]
  refine call.trans ?_
  rw [show canonicalBehind mode answer [] [] = [] from rfl, List.append_nil]

end Canonical

/-! ## Calls of functions -/

/-- An expression with a value means it in its canonical form, also with the blanks that are left
at its ends. -/
theorem means_of_evaluate {text : List Char} {mode : AngleMode} {answer value : Binary64}
    (h : evaluate text mode answer = .ok value) :
    Balanced (canonicalBehind mode answer [] text) ∧
      Means (canonicalBehind mode answer [] text) (.ok value) := by
  obtain ⟨form, formed, evaluated⟩ := bind_success h
  obtain ⟨tokens, lexed, valued⟩ := bind_success evaluated
  obtain ⟨t, sentence⟩ := Tokens.sentence_of_value valued
  rw [sentence.value_eq, Syntax.evaluate_eq_ok_iff] at valued
  have same : canonical mode answer text = form := by
    rw [canonicalize] at formed
    split at formed
    · cases formed
    · exact Except.ok.inj formed
  have read : Leads (canonicalBehind mode answer [] text) tokens.lexemes [] := by
    obtain ⟨lead, trail, blank, spaced⟩ := exists_canonicalBehind_eq mode answer text
    have middle := (Tokens.leads_of_ofText lexed).before_blanks
      fun c member => blank c (List.mem_append_right _ member)
    rw [spaced, same, List.append_assoc]
    exact (leads_blanks (fun c member => blank c (List.mem_append_left _ member)) _).trans middle
  have evaluates : Evaluates t (.ok value) := by
    intro levels
    rw [Syntax.evaluate_of_value? .standard nestingLimit t valued.1, Syntax.within]
    split
    · exact .inl rfl
    · exact .inr rfl
  exact ⟨sentence.balanced read, _, t, sentence.writes read, evaluates⟩

/-- Around an expression with a value every call of a function has the value that the function has
there, unless it is refused as too large. -/
theorem evaluate_call (f : SurfaceFunction) {text : List Char} {mode : AngleMode}
    {answer value : Binary64} (h : evaluate text mode answer = .ok value) :
    evaluate (f.name ++ parenthesized text) mode answer = .ok (f.apply mode value) ∨
      ∃ fault, evaluate (f.name ++ parenthesized text) mode answer = .error fault ∧
        fault.kind = .tooLarge := by
  obtain ⟨balanced, means⟩ := means_of_evaluate h
  rw [evaluate, evaluateWith, canonicalize]
  split
  · exact .inr ⟨_, rfl, rfl⟩
  · rw [ok_bind, canonical_call f balanced, ← evaluateCanonical]
    rcases (f.means_written mode means).agrees with same | tooDeep
    · exact .inl same
    · exact .inr ⟨_, tooDeep, rfl⟩

/-- Around a call, a product without a sign and blanks: thirty degrees from the last answer, whose sine
is found to be less than a half. -/
theorem evaluate_call_half :
    let sine := Binary64.ofDecimal .positive ⟨49999999999999994, -17⟩
    evaluate " 2arcsin( ans )/6 ".toList .degrees (.ofNat 1) = .ok (.ofNat 30) ∧
      SurfaceFunction.sin.apply .degrees (.ofNat 30) = sine ∧
      evaluate "sin( 2arcsin( ans )/6 )".toList .degrees (.ofNat 1) = .ok sine := by
  intro sine
  have inner : evaluate " 2arcsin( ans )/6 ".toList .degrees (.ofNat 1) = .ok (.ofNat 30) :=
    ok_of_toOption (by decide +kernel)
  have applied : SurfaceFunction.sin.apply .degrees (.ofNat 30) = sine := by decide +kernel
  have written : "sin( 2arcsin( ans )/6 )".toList =
      SurfaceFunction.sin.name ++ parenthesized " 2arcsin( ans )/6 ".toList := by decide
  have succeeds : (evaluate "sin( 2arcsin( ans )/6 )".toList .degrees (.ofNat 1)).isOk = true := by
    decide +kernel
  rw [written] at succeeds ⊢
  rcases evaluate_call .sin inner with value | ⟨fault, refused, -⟩
  · exact ⟨inner, applied, applied ▸ value⟩
  · rw [refused] at succeeds
    cases succeeds

end Calculator
