import Calculator.Proofs.Degrees.Lexemes

/-!
# Canonical forms in degrees and in radians

A text falls into stretches without parentheses and calls, and what stands between them: a
parenthesis, or the opening of a call. Both canonical forms have the same stretches, and where one
has the opening of a call the other has its own.
-/
namespace Calculator

theorem IsName.append {name name' : List Char} (h : IsName name) (h' : IsName name') :
    IsName (name ++ name') := by
  obtain ⟨⟨start, head, letter⟩, further⟩ := h
  cases name with
  | nil => cases head
  | cons c name =>
    refine ⟨⟨start, head, letter⟩, fun d member => ?_⟩
    rw [List.cons_append, List.tail_cons, List.mem_append] at member
    rcases member with member | member
    · exact further d member
    · exact h'.all d member

/-- Where a name may start behind a name, both together are unknown. -/
theorem IsName.isUnknown_append {name name' : List Char} (h : IsName name) (h' : IsName name')
    {before : Option Char} (boundary : isBoundary (lastOf before name) = true) :
    IsUnknown (name ++ name') := by
  obtain ⟨⟨c, head, letter⟩, -⟩ := h'
  have noDigit : c.isDigit = false := by
    cases digit : c.isDigit with
    | false => rfl
    | true =>
      have value := isSome_digitValue?_of_isDigit digit
      rw [(not_digit_of_isNameStart letter).1] at value
      cases value
  have digit : ∃ d ∈ name, d.isDigit = true := by
    rcases List.eq_nil_or_concat name with rfl | ⟨front, d, rfl⟩
    · obtain ⟨⟨_, none, -⟩, -⟩ := h
      cases none
    · have char := h.all d (by simp)
      have start : isNameStart d = false := by
        rw [List.concat_eq_append, lastOf_append] at boundary
        simpa [isBoundary, lastOf] using boundary
      rw [isNameChar, start, Bool.false_or] at char
      exact ⟨d, by simp, char⟩
  apply isUnknown_of_endsInDigits
  obtain ⟨d, member, digit⟩ := digit
  have found : (name.dropWhile (!·.isDigit)).isEmpty = false := by
    cases empty : name.dropWhile (!·.isDigit) with
    | nil =>
      have whole := List.takeWhile_append_dropWhile (p := (!·.isDigit)) (l := name)
      rw [empty, List.append_nil] at whole
      rw [← whole] at member
      have none := List.all_eq_true.1 List.all_takeWhile d member
      rw [digit] at none
      cases none
    | cons _ _ => rfl
  have inside : c ∈ (name ++ name').dropWhile (!·.isDigit) := by
    rw [List.dropWhile_append, found]
    exact List.mem_append_right _ (List.mem_of_mem_head? head)
  rw [endsInDigits, ← Bool.not_eq_true, List.all_eq_true]
  intro all
  rw [all c inside] at noDigit
  cases noDigit

/-! ## Openings of calls -/

theorem Leads.call {name : List Char} (h : IsName name) (rest : List Char) :
    Leads (name ++ '(' :: rest) [.name name, .operator .opening] rest :=
  (Leads.name h (stopsName_opening rest)).trans leads_opening

theorem leads_stages (stages : List Primitive) (rest : List Char) :
    Leads (stages.flatMap (fun p => p.name ++ ['(']) ++ rest)
      (stages.flatMap fun p => [.name p.name, .operator .opening]) rest := by
  induction stages with
  | nil => exact .here rest
  | cons p stages ih =>
    have first := Leads.call p.isName_name
      (stages.flatMap (fun p => p.name ++ ['(']) ++ rest)
    simp only [List.flatMap_cons, List.append_assoc, List.cons_append, List.nil_append]
    exact first.trans ih

/-- Lexemes that stand in both forms wherever they may. -/
def Neutral (lexemes : List Lexeme) : Prop :=
  ∀ {opened d r}, Wrapped opened d r → Wrapped opened (lexemes ++ d) (lexemes ++ r)

/-- The literal of the base of the natural logarithm is a numeral. -/
theorem exists_numeral_euler :
    ∃ n : Numeral, ∃ s : Sign, NumberFormat.literal.text .euler = NumberFormat.signed s n.text := by
  rcases NumberFormat.literal_cases .euler with ⟨same, -⟩ | ⟨s, same, -⟩ | ⟨s, m, n, -, text, -⟩
  · exact absurd same (by decide +kernel)
  · cases s <;> exact absurd same (by decide +kernel)
  · exact ⟨n, s, text⟩

theorem leads_comma (rest : List Char) : Leads (',' :: ' ' :: rest) [.operator .comma] rest :=
  (Leads.operator .comma (by intro h; cases h)).trans (.blank (by decide) (.here rest))

theorem neutral_comma : Neutral [.operator .comma] :=
  fun h => .operator .comma (by decide) (by decide) h

/-- A number in parentheses, with or without a sign. -/
theorem leads_enclosed (s : Sign) (n : Numeral) :
    ∃ lexemes, (∀ rest, Leads ('(' :: (NumberFormat.signed s n.text ++ ')' :: rest)) lexemes rest) ∧
      Neutral lexemes := by
  have minus : ∀ rest, Leads ('-' :: rest) [.operator .minus] rest := fun rest =>
    .operator .minus (by intro h; cases h)
  have numeral : ∀ rest, Leads (n.text ++ ')' :: rest) [.number n, .operator .closing] rest :=
    fun rest => (Leads.number n (Numeral.stops_cons rest (by decide) (by decide) (by decide))).trans
      leads_closing
  have tail : ∀ {opened d r}, Wrapped opened d r → Wrapped (false :: opened)
      (.number n :: .operator .closing :: d) (.number n :: .operator .closing :: r) :=
    fun h => .number n (.closing rfl h)
  cases s with
  | positive => exact ⟨_, fun rest => leads_opening.trans (numeral rest), fun h => .opening (tail h)⟩
  | negative =>
    exact ⟨_, fun rest => leads_opening.trans ((minus _).trans (numeral rest)),
      fun h => .opening (.operator .minus (by decide) (by decide) (tail h))⟩

theorem SurfaceFunction.leads_base (f : SurfaceFunction) :
    ∃ lexemes, (∀ rest, Leads (f.base ++ rest) lexemes rest) ∧ Neutral lexemes := by
  cases f with
  | pow10 =>
    have ten : ∀ rest, Leads (Numeral.ten.text ++ ',' :: rest) [.number .ten] (',' :: rest) :=
      fun rest => .number .ten (Numeral.stops_cons rest (by decide) (by decide) (by decide))
    exact ⟨_, fun rest => (ten _).trans (leads_comma rest), fun h => .number .ten (neutral_comma h)⟩
  | powE =>
    obtain ⟨n, s, text⟩ := exists_numeral_euler
    obtain ⟨lexemes, leads, neutral⟩ := leads_enclosed s n
    refine ⟨lexemes ++ [.operator .comma], fun rest => ?_, fun h => ?_⟩
    · rw [base, List.append_assoc, enclosedLiteral_append, text]
      exact (leads _).trans (leads_comma rest)
    · rw [List.append_assoc, List.append_assoc]
      exact neutral (neutral_comma h)
  | _ => exact ⟨[], fun rest => .here rest, fun h => h⟩

/-- The opening of a call, behind a name or not. -/
theorem SurfaceFunction.leads_opening (f : SurfaceFunction) {mode : AngleMode} {p : Primitive}
    {stages : List Primitive} (same : f.stages mode = p :: stages) {lexemes : List Lexeme}
    (base : ∀ rest, Leads (f.base ++ rest) lexemes rest) {name : List Char}
    (isName : IsName (name ++ p.name)) (rest : List Char) :
    Leads (name ++ (f.opening mode ++ rest))
      (.name (name ++ p.name) :: .operator .opening ::
        (stages.flatMap (fun p => [.name p.name, .operator .opening]) ++ lexemes)) rest := by
  have first := Leads.call isName
    (stages.flatMap (fun p => p.name ++ ['(']) ++ (f.base ++ rest))
  rw [opening_eq, same]
  simp only [List.flatMap_cons, List.append_assoc, List.cons_append, List.nil_append] at first ⊢
  exact first.trans ((leads_stages stages _).trans (base rest))

/-- What the stages of a call are in both modes. -/
inductive SurfaceFunction.Stages (f : SurfaceFunction) : Prop
  | angular {p outer inner : Primitive} (wrapper : p.wrapper? = some (outer, inner))
      (angular : f.isAngular = true) (degrees : f.stages .degrees = [outer, inner])
      (radians : f.stages .radians = [p]) (base : f.base = [])
  | plain {p : Primitive} (wrapper : p.wrapper? = none) (angular : f.isAngular = false)
      (same : ∀ mode, f.stages mode = [p])

theorem SurfaceFunction.stages_cases (f : SurfaceFunction) : f.Stages := by
  cases f with
  | log | ln | sqrt | pow10 | powE => exact .plain rfl rfl fun _ => rfl
  | _ => exact .angular rfl rfl rfl rfl rfl

/-- Calls of one function in both texts, behind a name or not. Behind a name nothing is called. -/
theorem ReadWrapped.call {opened : List Bool} {D R : List Char} (f : SurfaceFunction)
    (h : ReadWrapped (f.isAngular :: opened) D R) {name : List Char}
    (isName : name = [] ∨ IsName name ∧ ∃ before, isBoundary (lastOf before name) = true) :
    ReadWrapped opened (name ++ (f.opening .degrees ++ D)) (name ++ (f.opening .radians ++ R)) := by
  have called : ∀ p : Primitive, IsName (name ++ p.name) := by
    intro p
    rcases isName with rfl | ⟨isName, -⟩
    · exact p.isName_name
    · exact isName.append p.isName_name
  have unknown : ∀ p : Primitive, name ≠ [] → IsUnknown (name ++ p.name) := by
    intro p nonempty
    rcases isName with none | ⟨isName, before, boundary⟩
    · exact absurd none nonempty
    · exact isName.isUnknown_append p.isName_name boundary
  cases f.stages_cases with
  | @angular p outer inner wrapper angular degrees radians noBase =>
    have noBase : ∀ rest, Leads (f.base ++ rest) [] rest := by
      intro rest
      rw [noBase]
      exact .here rest
    have first := f.leads_opening degrees noBase (called outer) D
    have second := f.leads_opening radians noBase (called p) R
    refine h.lead first second fun _ wrapped => ?_
    rw [angular] at wrapped
    by_cases alone : name = []
    · subst alone
      exact .call wrapper wrapped
    · exact .unknown (unknown outer alone) (unknown p alone) _ _
  | @plain p wrapper plain same =>
    obtain ⟨lexemes, base, neutral⟩ := f.leads_base
    have opening := fun mode rest => f.leads_opening (same mode) base (called p) rest
    refine h.lead (opening .degrees D) (opening .radians R) fun _ wrapped => ?_
    rw [plain] at wrapped
    by_cases alone : name = []
    · subst alone
      refine .name p.name (fun q named angular => ?_) (.opening (neutral wrapped))
      have same : q = p := by
        have found := Primitive.ofName?_name q
        rw [named, Primitive.ofName?_name] at found
        exact (Option.some.inj found).symm
      rw [same, wrapper] at angular
      cases angular
    · exact .unknown (unknown p alone) (unknown p alone) _ _

/-! ## Stretches -/

/-- What ends a stretch: nothing more, a parenthesis or a call. -/
inductive Break (before : Option Char) : List Char → Prop
  | ending : Break before []
  | opening (rest : List Char) : Break before ('(' :: rest)
  | closing (rest : List Char) : Break before (')' :: rest)
  | call (f : SurfaceFunction) (boundary : isBoundary before = true) (rest : List Char) :
      Break before (f.name ++ '(' :: rest)

/-- A text falls into a stretch and what ends it. -/
theorem exists_plain (before : Option Char) (text : List Char) :
    ∃ u tail, text = u ++ tail ∧ Plain tail before u ∧ Break (lastOf before u) tail := by
  induction text generalizing before with
  | nil => exact ⟨[], [], rfl, trivial, .ending⟩
  | cons c rest ih =>
    cases call : SurfaceFunction.callAt? before (c :: rest) with
    | some f =>
      obtain ⟨boundary, rest', same⟩ := callAt?_eq_some call
      exact ⟨[], c :: rest, rfl, trivial, by rw [same]; exact .call f boundary rest'⟩
    | none =>
      by_cases opening : c = '('
      · exact ⟨[], c :: rest, rfl, trivial, by rw [opening]; exact .opening rest⟩
      · by_cases closing : c = ')'
        · exact ⟨[], c :: rest, rfl, trivial, by rw [closing]; exact .closing rest⟩
        · obtain ⟨u, tail, same, plain, ends⟩ := ih (some c)
          refine ⟨c :: u, tail, by rw [same, List.cons_append], ⟨?_, opening, closing, plain⟩, ends⟩
          rw [List.cons_append, ← same, call]

theorem inert_opening (mode : AngleMode) (f : SurfaceFunction) (rest : List Char) :
    Inert (f.opening mode ++ rest) := by
  have names : ∀ p : Primitive, ∀ rest, Inert (p.name ++ rest) := by
    intro p rest
    cases p <;> exact inert_cons _ (by decide) (by decide)
  have first : ∃ p stages, f.stages mode = p :: stages := by
    cases mode <;> cases f <;> exact ⟨_, _, rfl⟩
  obtain ⟨p, stages, same⟩ := first
  rw [SurfaceFunction.opening_eq, same]
  simp only [List.flatMap_cons, List.append_assoc]
  exact names p _

/-- A name in front of a parenthesis is no primitive of an angle, for it would be a call. -/
theorem ReadWrapped.nameOpening {opened : List Bool} {D R name rest : List Char}
    (h : ReadWrapped (false :: opened) D R) (isName : IsName name) {before : Option Char}
    (boundary : isBoundary before = true) (plain : Plain ('(' :: rest) before name)
    (clean : Clean before (name ++ '(' :: rest)) :
    ReadWrapped opened (name ++ '(' :: D) (name ++ '(' :: R) := by
  refine h.lead (.call isName D) (.call isName R) fun _ h => .name name ?_ (.opening h)
  rintro p rfl angular -
  obtain ⟨c, head, -⟩ := isName.start
  have call := plain.callAt?_eq_none (by rintro none; rw [none] at head; cases head)
  exact (clean.bare boundary angular call).2 rfl

theorem ReadWrapped.nameClosing {opened : List Bool} {D R name : List Char}
    (h : ReadWrapped opened (')' :: D) (')' :: R)) (isName : IsName name) :
    ReadWrapped opened (name ++ ')' :: D) (name ++ ')' :: R) := by
  have stops : ∀ {X}, StopsName (')' :: X) := fun c head => by cases head; decide
  refine h.lead (.name isName stops) (.name isName stops) fun spelled h => .name name ?_ h
  exact fun _ _ _ => spelled.head?_ne_opening (by decide) (by decide)

/-- Both forms of a text are refused, or read as lexemes that correspond. -/
theorem readWrapped_expandOnward (opened : List Bool) {before : Option Char} {text : List Char}
    (boundary : isBoundary before = true) (clean : Clean before text) :
    ReadWrapped opened (expandOnward .degrees opened 0 before text)
      (expandOnward .radians opened 0 before text) := by
  induction size : text.length using Nat.strongRecOn generalizing opened before text with
  | ind count ih =>
    obtain ⟨u, tail, rfl, plain, ends⟩ := exists_plain before text
    rw [expandOnward_plain plain, expandOnward_plain plain]
    rw [List.length_append] at size
    have further := clean.append
    have stretch : ∀ {D R}, Inert D → Inert R → ReadWrapped opened D R →
        (∀ name before', IsName name → isBoundary before' = true →
          lastOf before' name = lastOf before u → Plain tail before' name →
          Clean before' (name ++ tail) → ReadWrapped opened (name ++ D) (name ++ R)) →
        ReadWrapped opened (u ++ D) (u ++ R) := fun inert inert' after joined =>
      .behind inert inert' after joined rfl plain clean (.inl boundary)
    have shorter : ∀ {rest : List Char}, rest.length < tail.length → rest.length < count :=
      fun h => by omega
    cases ends with
    | ending =>
      refine stretch inert_nil inert_nil (.read spells_nil spells_nil .ending) ?_
      intro name _ isName _ _ _ _
      have spelled := spells_nil.name isName (by intro c head; cases head)
      exact .read spelled spelled (.name name (fun _ _ _ head => by cases head) .ending)
    | opening rest =>
      have inner := ih rest.length (shorter (by simp)) (false :: opened) rfl further.tail rfl
      rw [expandOnward_opening, expandOnward_opening]
      refine stretch (inert_cons _ (by decide) (by decide)) (inert_cons _ (by decide) (by decide))
        inner.opening ?_
      intro name before' isName boundary' _ plain' clean'
      exact inner.nameOpening isName boundary' plain' clean'
    | closing rest =>
      have inner := ih rest.length (shorter (by simp)) opened.tail rfl further.tail rfl
      rw [expandOnward_closing, expandOnward_closing]
      refine stretch (inert_cons _ (by decide) (by decide)) (inert_cons _ (by decide) (by decide))
        inner.closing ?_
      intro name _ isName _ _ _ _
      exact inner.closing.nameClosing isName
    | call f boundary rest =>
      have inner := ih rest.length (shorter (by simp; omega)) (f.isAngular :: opened) rfl
        further.append.tail rfl
      rw [expandOnward_call f boundary, expandOnward_call f boundary]
      refine stretch (inert_opening _ f _) (inert_opening _ f _) (inner.call f (.inl rfl)) ?_
      intro name before' isName _ last _ _
      exact inner.call f (.inr ⟨isName, before', by rw [last, boundary]⟩)

end Calculator
