import Calculator.Proofs.Grammar.Writing
import Calculator.Proofs.Surface.Rewriting

/-!
# The value of a surface expression

The canonical text of an expression means what the expression means: it writes a tree that is
evaluated to the same value or to the same zero divisor, unless the nesting is found too deep before.
-/
namespace Calculator

/-- What is read is the value, unless the nesting is found too deep. -/
def Agrees {α : Type} (limit : Nat) (read value : Except Fault α) : Prop :=
  read = value ∨ read = .error (.nestedTooDeep limit)

namespace Agrees

variable {α β : Type} {limit : Nat}

theorem bind {read value : Except Fault α} {next next' : α → Except Fault β}
    (first : Agrees limit read value) (further : ∀ x, Agrees limit (next x) (next' x)) :
    Agrees limit (read >>= next) (value >>= next') := by
  rcases first with rfl | tooDeep
  · cases read with
    | error fault => exact .inl rfl
    | ok x => exact further x
  · rw [tooDeep]
    exact .inr rfl

/-- The same step behind what is read and behind the value. -/
theorem andThen {read value : Except Fault α} (h : Agrees limit read value)
    (next : α → Except Fault β) : Agrees limit (read >>= next) (value >>= next) :=
  h.bind fun _ => .inl rfl

theorem descend {inner : Nat → Except Fault α} {value : Except Fault α}
    (h : ∀ levels, Agrees limit (inner levels) value) (levels : Nat) :
    Agrees limit (Syntax.descend limit inner levels) value := by
  cases levels with
  | zero => exact .inr rfl
  | succ levels => exact h levels

end Agrees

/-- Whatever levels there are to spend, the tree is read to this value. -/
def Evaluates (t : Syntax) (value : Except Fault Binary64) : Prop :=
  ∀ levels, Agrees nestingLimit (t.evaluate .standard nestingLimit levels) value

section Trees

variable {t t' : Syntax} {value value' : Except Fault Binary64}

theorem evaluates_number (n : Numeral) : Evaluates (.number n) (.ok n.value) :=
  fun _ => .inl rfl

theorem evaluates_constant {name : List Char} {x : Binary64}
    (h : Syntax.nameValue? .standard name = some x) : Evaluates (.constant name) (.ok x) :=
  fun _ => .inl (Syntax.readName_of_nameValue? h)

namespace Evaluates

theorem group (h : Evaluates t value) : Evaluates (.group t) value :=
  fun levels => Agrees.descend h levels

theorem signed (sign : Sign) (h : Evaluates t value) :
    Evaluates (.signed sign t) (value >>= fun x => .ok (sign.applyTo x)) :=
  fun levels => (Agrees.descend h levels).bind fun _ => .inl rfl

theorem sum (sign : Sign) (h : Evaluates t value) (h' : Evaluates t' value') :
    Evaluates (.sum sign t t')
      (value >>= fun x => value' >>= fun y => .ok (sign.combine x y)) :=
  fun levels => (h levels).bind fun _ => (h' levels).bind fun _ => .inl rfl

theorem product (link : Link) (h : Evaluates t value) (h' : Evaluates t' value') :
    Evaluates (.product link t t')
      (value >>= fun x => value' >>= fun y => Syntax.readLink link x y) :=
  fun levels => (h levels).bind fun _ => (h' levels).bind fun _ => .inl rfl

theorem power (h : Evaluates t value) (h' : Evaluates t' value') :
    Evaluates (.power t t') (value >>= fun x => value' >>= fun y => .ok (x.power y)) :=
  fun levels => (h levels).bind fun _ => (Agrees.descend h' levels).bind fun _ => .inl rfl

/-- A call of a primitive with one argument. -/
theorem call {p : Primitive} {f : Binary64 → Binary64} (unary : p.function = .unary f)
    (h : Evaluates t value) : Evaluates (.call p.name [t]) (value >>= fun x => .ok (f x)) := by
  intro levels
  have arguments : ∀ levels, Agrees nestingLimit
      (Syntax.evaluateAll .standard nestingLimit [t] levels) (value >>= fun x => .ok [x]) :=
    fun levels => (h levels).bind fun _ => .inl rfl
  have result := (Agrees.descend arguments levels).andThen (Syntax.applyAll p.name p.function)
  rw [bind_bind, unary] at result
  rw [Syntax.evaluate, Registry.standard_function?, unary]
  exact result

/-- A power that is written as a call. -/
theorem callPower (h : Evaluates t value) (h' : Evaluates t' value') :
    Evaluates (.call Primitive.pow.name [t, t'])
      (value >>= fun x => value' >>= fun y => .ok (x.power y)) := by
  intro levels
  have arguments : ∀ levels, Agrees nestingLimit
      (Syntax.evaluateAll .standard nestingLimit [t, t'] levels)
      (value >>= fun x => (value' >>= fun y => .ok [y]) >>= fun ys => .ok (x :: ys)) :=
    fun levels => (h levels).bind fun _ => ((h' levels).bind fun _ => .inl rfl).bind
      fun _ => .inl rfl
  have result := (Agrees.descend arguments levels).andThen
    (Syntax.applyAll Primitive.pow.name (.binary .power))
  simp only [bind_bind, ok_bind] at result
  rw [Syntax.evaluate, Registry.standard_function?]
  exact result

end Evaluates

end Trees

/-- The text writes a tree of this value. -/
def Means (text : List Char) (value : Except Fault Binary64) : Prop :=
  ∃ lexemes t, Writes text lexemes t ∧ Evaluates t value

theorem Means.agrees {text : List Char} {value : Except Fault Binary64} (h : Means text value) :
    Agrees nestingLimit (evaluateCanonical text) value := by
  obtain ⟨lexemes, t, writes, evaluates⟩ := h
  rw [evaluateCanonical, writes.evaluateCanonicalWith_eq]
  exact evaluates nestingLimit

theorem means_numeral (n : Numeral) : Means n.text (.ok n.value) :=
  ⟨_, _, writes_number n, evaluates_number n⟩

theorem Sign.symbol_text (sign : Sign) : sign.symbol.text = [sign.char] := by
  cases sign <;> rfl

/-- A literal in parentheses means its number. -/
theorem means_enclosedLiteral (x : Binary64) : Means (enclosedLiteral x) (.ok x) := by
  have nan : IsName "NaN".toList := ⟨⟨'N', rfl, by decide⟩, forall_mem_of_all (by decide)⟩
  have infinity : IsName "Infinity".toList := ⟨⟨'I', rfl, by decide⟩, forall_mem_of_all (by decide)⟩
  have body : enclosedLiteral x = parenthesized (NumberFormat.literal.text x) := rfl
  rw [body]
  rcases NumberFormat.literal_cases x with ⟨rfl, text⟩ | ⟨s, rfl, text⟩ | ⟨s, m, n, rfl, text, value⟩
  · exact ⟨_, _, (writes_constant nan).group, (evaluates_constant rfl).group⟩
  · cases s with
    | positive => exact ⟨_, _, (writes_constant infinity).group, (evaluates_constant rfl).group⟩
    | negative =>
      have constant : Evaluates (.constant "Infinity".toList) (.ok (.infinite .positive)) :=
        evaluates_constant rfl
      exact ⟨_, _, (Writes.signedConstant .negative infinity).group,
        (constant.signed .negative).group⟩
  · have numeral := evaluates_number n
    rw [value] at numeral
    rw [text]
    cases s with
    | positive => exact ⟨_, _, (writes_number n).group, numeral.group⟩
    | negative =>
      exact ⟨_, _, (Writes.signedNumber .negative n).group, (numeral.signed .negative).group⟩

/-! ## Calls -/

/-- Primitives of one argument, applied one around the other. -/
inductive Computes : List Primitive → (Binary64 → Binary64) → Prop
  | nil : Computes [] id
  | cons {p : Primitive} {f g : Binary64 → Binary64} {stages : List Primitive}
      (unary : p.function = .unary f) (inner : Computes stages g) :
      Computes (p :: stages) (f ∘ g)

theorem Primitive.isName_name (p : Primitive) : IsName p.name := by
  cases p <;> exact ⟨⟨_, rfl, by decide⟩, forall_mem_of_all (by decide)⟩

theorem Computes.means {stages : List Primitive} {g : Binary64 → Binary64}
    (h : Computes stages g) {text : List Char} {value : Except Fault Binary64}
    (inner : Means text value) : Means (nest stages text) (value >>= fun x => .ok (g x)) := by
  induction h with
  | nil =>
    cases value with
    | error fault => exact inner
    | ok x => exact inner
  | cons unary computes ih =>
    obtain ⟨lexemes, t, writes, evaluates⟩ := ih
    have call := evaluates.call unary
    rw [bind_bind] at call
    exact ⟨_, _, writes.call (Primitive.isName_name _), call⟩

namespace SurfaceFunction

theorem computes_single {p : Primitive} {f : Binary64 → Binary64} (unary : p.function = .unary f) :
    Computes [p] f :=
  .cons unary .nil

theorem computes_ofAngle (mode : AngleMode) {p : Primitive} {f : Binary64 → Binary64}
    (unary : p.function = .unary f) :
    Computes (p :: mode.converting .radians) (ofAngle mode f) := by
  cases mode with
  | degrees =>
    have convert : Computes [Primitive.radians] Binary64.degreesToRadians := computes_single rfl
    exact .cons unary convert
  | radians => exact computes_single unary

theorem computes_toAngle (mode : AngleMode) {p : Primitive} {f : Binary64 → Binary64}
    (unary : p.function = .unary f) :
    Computes (mode.converting .degrees ++ [p]) (toAngle mode f) := by
  cases mode with
  | degrees =>
    have convert : Primitive.degrees.function = .unary Binary64.radiansToDegrees := rfl
    exact .cons convert (computes_single unary)
  | radians => exact computes_single unary

/-- Every function but the powers is a sequence of primitives. -/
theorem computes (mode : AngleMode) (f : SurfaceFunction) (ten : f ≠ .pow10) (euler : f ≠ .powE) :
    Computes (f.stages mode) (f.apply mode) := by
  cases f with
  | sin => exact computes_ofAngle mode (p := .sin) rfl
  | cos => exact computes_ofAngle mode (p := .cos) rfl
  | tan => exact computes_ofAngle mode (p := .tan) rfl
  | arcsin => exact computes_toAngle mode (p := .asin) rfl
  | arccos => exact computes_toAngle mode (p := .acos) rfl
  | arctan => exact computes_toAngle mode (p := .atan) rfl
  | log => exact computes_single (p := .log10) rfl
  | ln => exact computes_single (p := .log) rfl
  | sqrt => exact computes_single (p := .sqrt) rfl
  | pow10 => exact absurd rfl ten
  | powE => exact absurd rfl euler

end SurfaceFunction

/-- The numeral of ten. -/
def Numeral.ten : Numeral :=
  ⟨[Digit.ofNat 1 (Nat.one_lt_succ_succ 8), Digit.ofNat 0 (Nat.zero_lt_succ 9)], none, none,
    List.cons_ne_nil _ _⟩

theorem Numeral.value_ten : ten.value = .ofNat 10 := by
  decide +kernel

/-- A power of a base that is written before the argument. -/
theorem means_power {text base : List Char} {value : Except Fault Binary64} {b : Binary64}
    (written : Means base (.ok b)) (h : Means text value) :
    Means (Primitive.pow.name ++ parenthesized (base ++ ',' :: ' ' :: text))
      (value >>= fun x => .ok (b.power x)) := by
  obtain ⟨_, _, writes₁, evaluates₁⟩ := written
  obtain ⟨_, _, writes₂, evaluates₂⟩ := h
  exact ⟨_, _, Writes.callTwo (Primitive.isName_name _) writes₁ writes₂,
    evaluates₁.callPower evaluates₂⟩

theorem SurfaceFunction.means_written (mode : AngleMode) (f : SurfaceFunction) {text : List Char}
    {value : Except Fault Binary64} (h : Means text value) :
    Means (f.written mode text) (value >>= fun x => .ok (f.apply mode x)) := by
  rw [written_eq]
  cases f with
  | pow10 =>
    have ten := means_numeral Numeral.ten
    rw [Numeral.value_ten] at ten
    exact means_power ten h
  | powE =>
    have power := means_power (means_enclosedLiteral .euler) h
    rw [base, List.append_assoc]
    exact power
  | _ => exact (computes mode _ (by decide) (by decide)).means h

/-! ## Expressions -/

theorem means_expanded (mode : AngleMode) (answer : Binary64) (t : Surface) :
    Means (t.expanded mode answer) (t.value mode answer) := by
  induction t with
  | numeral n => exact means_numeral n
  | pi => exact means_enclosedLiteral _
  | euler => exact means_enclosedLiteral _
  | answer => exact means_enclosedLiteral _
  | signed sign t ih =>
    obtain ⟨lexemes, tree, writes, evaluates⟩ := ih
    have signed := writes.signed sign
    have value := evaluates.group.signed sign
    rw [Sign.symbol_text] at signed
    refine ⟨_, _, signed, ?_⟩
    cases sign with
    | negative => exact value
    | positive =>
      simp only [Surface.value]
      cases operand : t.value mode answer with
      | error fault =>
        rw [operand] at value
        exact value
      | ok x =>
        rw [operand] at value
        exact value
  | binary o left right ih₁ ih₂ =>
    obtain ⟨_, _, writes₁, evaluates₁⟩ := ih₁
    obtain ⟨_, _, writes₂, evaluates₂⟩ := ih₂
    have first := evaluates₁.group
    have second := evaluates₂.group
    cases o with
    | plus => exact ⟨_, _, writes₁.sum .positive writes₂, first.sum .positive second⟩
    | minus => exact ⟨_, _, writes₁.sum .negative writes₂, first.sum .negative second⟩
    | times => exact ⟨_, _, writes₁.product .times rfl writes₂, first.product .times second⟩
    | divide => exact ⟨_, _, writes₁.product .divide rfl writes₂, first.product .divide second⟩
    | modulo => exact ⟨_, _, writes₁.product .modulo rfl writes₂, first.product .modulo second⟩
    | power => exact ⟨_, _, writes₁.power writes₂, first.power second⟩
  | call f t ih => exact f.means_written mode ih

/-- The text of a surface expression evaluates to the value of the expression, from left to right, in
every angle mode and with every last answer, unless it is too large. Besides that only a zero divisor
is ever met. -/
theorem evaluate_text (t : Surface) (mode : AngleMode) (answer : Binary64) :
    (evaluate t.text mode answer = t.value mode answer ∨
      ∃ fault, evaluate t.text mode answer = .error fault ∧ fault.kind = .tooLarge) ∧
    ∀ fault, t.value mode answer = .error fault → fault.kind = .divisionByZero := by
  constructor
  · unfold evaluate evaluateWith canonicalize
    split
    · exact .inr ⟨_, rfl, rfl⟩
    · rw [ok_bind, Surface.canonical_text, ← evaluateCanonical]
      rcases (means_expanded mode answer t).agrees with same | tooDeep
      · exact .inl same
      · exact .inr ⟨_, tooDeep, rfl⟩
  · intro fault h
    obtain ⟨x, o, rfl⟩ := t.value_fault mode answer h
    rfl

end Calculator
