import Calculator.Proofs.Checked.Safety
import Calculator.Proofs.Number.Nearest
import Calculator.Proofs.Number.Whole
import Calculator.Proofs.Session.Coherence
import Mathlib.Data.Nat.Factorial.Basic

/-!
# Checked sessions

What a session does besides evaluating can slip too: showing a number converts it to an integer, a
factorial is an exact product that has to fit into a number, a number at the start of an expression is
cut out as a text and read, and a token has to be known. A factorial between whole numbers is found
by a library, which may fail. Here all of this is checked, an error that is reported is handled where
a session handles it, and a slip goes through. With every check each action still does what it does,
and with a library that has every factorial nothing slips.
-/
namespace Calculator.Checked

/-! ## Numbers on the display -/

/-- The text of a number on the display. What is equal to its whole part and below the first power of
ten that is written as such is shown as an integer. -/
def displayText (x : Binary64) : Except Slip (List Char) :=
  if x.isNaN then .ok NumberFormat.display.nanName
  else if x = .infinite .positive then .ok infinityName
  else if x = .infinite .negative then .ok ('-' :: infinityName)
  else do
    let whole ← truncate x
    if equalsInt x whole && decide (whole.natAbs < 10 ^ 15) then do
      let whole ← truncate x
      .ok (wholeText whole)
    else .ok (NumberFormat.display.text x)

theorem displayText_eq (x : Binary64) : displayText x = .ok (Calculator.displayText x) := by
  cases x with
  | nan => rfl
  | infinite s => cases s <;> rfl
  | finite s m =>
    have whole : truncate (.finite s m) = .ok (s.apply (m.quanta / quantaPerUnit)) := rfl
    have regular : (Binary64.finite s m).isNaN = false := rfl
    unfold displayText
    rw [regular, whole]
    simp only [Bool.false_eq_true, if_false, reduceCtorEq, ok_bind, equalsInt_truncate,
      Sign.natAbs_apply]
    split
    · rename_i integer
      simp only [Bool.and_eq_true, decide_eq_true_eq] at integer
      have parts : m.quanta = m.quanta / quantaPerUnit * quantaPerUnit := by
        have split := Nat.div_add_mod' m.quanta quantaPerUnit
        rw [integer.1, Nat.add_zero] at split
        exact split.symm
      rw [Calculator.displayText, display_whole parts integer.2]
    · rfl

/-! ## Factorials -/

/-- A number, unless it is too large for one. -/
def bounded (x : Binary64) : Except Slip Binary64 :=
  if x = .infinite .positive then .error .overflow else .ok x

/-- The exact product up to a whole number, which must not be less than zero. -/
def exactFactorial (i : Int) : Except Slip Nat :=
  if i < 0 then .error .badValue else .ok (factorialProduct i.toNat)

/-- The slip of a value that is not converted. -/
def conversionSlip : ConversionFailure → Slip
  | .overflow => .overflow
  | .failed failure => .raised failure

/-- The factorial: an exact product for whole numbers up to the last one with a finite factorial, and
what the library finds between them. Only a value that is too large is replaced. -/
def factorial (library : FactorialLibrary) (x : Binary64) : Except Slip Binary64 :=
  if x.isNaN || x.isNegative then .ok .nan
  else if isInfinite x then .ok (.infinite .positive)
  else do
    let whole ← truncate x
    if equalsInt x whole then
      if (Binary64.factorialLimit : Int) < whole then .ok (.infinite .positive)
      else do
        let whole ← truncate x
        let product ← exactFactorial whole
        bounded (.ofNat product)
    else do
      let value ← (library.factorial FactorialLibrary.workingDigits x).mapError .raised
      match (library.toBinary64 value).mapError conversionSlip with
      | .error .overflow => .ok (.infinite .positive)
      | result => result

/-- A whole number of quanta below the middle behind the greatest magnitude has a finite number. -/
theorem ofQuotient_ne_infinite {s : Sign} {quanta : Nat} (h : quanta < Magnitude.overflowQuanta) :
    Binary64.ofQuotient s quanta 1 ≠ .infinite .positive := by
  unfold Binary64.ofQuotient
  cases read : Magnitude.ofQuotient? quanta 1 with
  | some m =>
    intro infinite
    cases infinite
  | none =>
    have large := Magnitude.le_of_ofQuotient?_eq_none one_pos read
    generalize Magnitude.overflowQuanta = limit at h large
    rw [Nat.cast_one, div_one] at large
    exact absurd (Nat.cast_le.1 large) (Nat.not_le.2 h)

theorem factorialProduct_eq (n : Nat) : factorialProduct n = n.factorial := by
  induction n with
  | zero => rfl
  | succ n ih => rw [factorialProduct, ih, Nat.factorial_succ]

/-- Up to the limit the exact product fits into a number. -/
theorem ofNat_factorialProduct_ne_infinite {n : Nat} (h : n ≤ Binary64.factorialLimit) :
    Binary64.ofNat (factorialProduct n) ≠ .infinite .positive := by
  have greatest : factorialProduct Binary64.factorialLimit * quantaPerUnit <
      Magnitude.overflowQuanta := by
    decide +kernel
  have less : factorialProduct n ≤ factorialProduct Binary64.factorialLimit := by
    rw [factorialProduct_eq, factorialProduct_eq]
    exact Nat.factorial_le h
  exact ofQuotient_ne_infinite ((Nat.mul_le_mul_right _ less).trans_lt greatest)

/-- What the library finds is converted, and what it does not find is a slip. -/
theorem rounded_handled (library : FactorialLibrary) (x : Binary64) :
    (do
      let value ← (library.factorial FactorialLibrary.workingDigits x).mapError Slip.raised
      match (library.toBinary64 value).mapError conversionSlip with
      | .error .overflow => .ok (.infinite .positive)
      | result => result) = (library.rounded x).mapError .raised := by
  rw [FactorialLibrary.rounded]
  cases library.factorial FactorialLibrary.workingDigits x with
  | error failure => rfl
  | ok value =>
    dsimp only [Except.mapError, ok_bind]
    cases library.toBinary64 value with
    | ok y => rfl
    | error failure => cases failure <;> rfl

theorem isNegative_finite (s : Sign) (m : Magnitude) :
    (Binary64.finite s m).isNegative = decide (s = .negative ∧ m.quanta ≠ 0) := by
  have zero : m.quanta = 0 ↔ m.significand = 0 := ⟨significand_of_quanta, quanta_of_significand⟩
  cases s <;> rw [Bool.eq_iff_iff] <;> simp [Binary64.isNegative, zero]

theorem factorial_eq (library : FactorialLibrary) (x : Binary64) :
    factorial library x = (x.factorial library).mapError .raised := by
  cases x with
  | nan => rfl
  | infinite s => cases s <;> rfl
  | finite s m =>
    have number : (Binary64.finite s m).isNaN = false := rfl
    have finite : isInfinite (.finite s m) = false := rfl
    have truncated : truncate (.finite s m) = .ok (s.apply (m.quanta / quantaPerUnit)) := rfl
    unfold factorial
    rw [number, finite, truncated, Bool.false_or, isNegative_finite]
    by_cases negative : s = .negative ∧ m.quanta ≠ 0
    · rw [if_pos (decide_eq_true negative), Binary64.factorial, if_pos negative]
      rfl
    · -- without a minus sign, or at zero, the integer is the whole part
      have whole : s.apply (m.quanta / quantaPerUnit) = ((m.quanta / quantaPerUnit : Nat) : Int) := by
        cases s with
        | positive => rfl
        | negative =>
          have zero : m.quanta = 0 := by simpa using negative
          rw [zero, Nat.zero_div]
          rfl
      have equal : equalsInt (.finite s m) ((m.quanta / quantaPerUnit : Nat) : Int) =
          decide (m.quanta % quantaPerUnit = 0) := by
        rw [← whole]
        exact equalsInt_truncate s m
      rw [decide_eq_false negative, if_neg Bool.false_ne_true, if_neg Bool.false_ne_true, ok_bind, whole,
        equal, Binary64.factorial, if_neg negative]
      by_cases integer : m.quanta % quantaPerUnit = 0
      · rw [decide_eq_true integer, if_pos rfl, if_pos integer]
        generalize m.quanta / quantaPerUnit = n
        by_cases large : Binary64.factorialLimit < n
        · rw [if_pos large, if_pos (Int.ofNat_lt.2 large)]
          rfl
        · have within : n ≤ Binary64.factorialLimit := Nat.le_of_not_lt large
          rw [if_neg large, if_neg fun more => large (Int.ofNat_lt.1 more), ok_bind, exactFactorial,
            if_neg (Int.not_lt.2 (Int.natCast_nonneg n)), Int.toNat_natCast, ok_bind, bounded,
            if_neg (ofNat_factorialProduct_ne_infinite within)]
          rfl
      · rw [decide_eq_false integer, if_neg Bool.false_ne_true, if_neg integer]
        exact rounded_handled library _

/-- A library that has every factorial leaves none out. -/
theorem exists_factorial {library : FactorialLibrary} (complete : library.IsComplete) (x : Binary64) :
    ∃ value, x.factorial library = .ok value := by
  cases x with
  | nan => exact ⟨_, rfl⟩
  | infinite s => cases s <;> exact ⟨_, rfl⟩
  | finite s m =>
    by_cases negative : s = .negative ∧ m.quanta ≠ 0
    · exact ⟨_, if_pos negative⟩
    · by_cases integer : m.quanta % quantaPerUnit = 0
      · exact ⟨_, (if_neg negative).trans (if_pos integer)⟩
      · have positive : (Binary64.finite s m).isNegative = false := by
          rw [isNegative_finite, decide_eq_false negative]
        obtain ⟨value, found⟩ := complete.defined FactorialLibrary.workingDigits (.finite s m)
          (by decide) rfl positive
        have rounded : (Binary64.finite s m).factorial library = library.rounded (.finite s m) :=
          (if_neg negative).trans (if_neg integer)
        rw [rounded, FactorialLibrary.rounded, found]
        cases converted : library.toBinary64 value with
        | ok y => exact ⟨y, by rw [ok_bind, converted]⟩
        | error failure =>
          cases failure with
          | overflow => exact ⟨_, by rw [ok_bind, converted]⟩
          | failed failure => exact absurd converted (complete.converted value failure)

/-! ## The number at the start of an expression -/

/-- The text of the number at the start of an expression: a sign or none, and then the name of
infinity or a numeral. -/
def leadingText? (expression : List Char) : Option (List Char) :=
  let (sign, text) := Sign.scan (expression.dropWhile isBlank)
  let unsigned := if infinityName.isPrefixOf text then some infinityName
    else (Numeral.scan? text).map fun (numeral, _) => numeral.text
  unsigned.map ((sign.map Sign.char).toList ++ ·)

/-- The number at the start of an expression. -/
def leadingNumber? (expression : List Char) : Except Slip (Option Binary64) :=
  match leadingText? expression with
  | none => .ok none
  | some text => do
    let x ← readNumber text
    .ok (some x)

theorem leadingNumber?_eq (expression : List Char) :
    leadingNumber? expression = .ok (Calculator.leadingNumber? expression) := by
  unfold leadingNumber? leadingText? Calculator.leadingNumber? unsignedNumber?
  dsimp only
  generalize (Sign.scan (expression.dropWhile isBlank)).2 = text
  generalize (Sign.scan (expression.dropWhile isBlank)).1 = sign
  by_cases named : infinityName.isPrefixOf text = true
  · simp only [named, if_true, Option.map_some, readNumber_infinity, ok_bind]
  · simp only [named, Bool.false_eq_true, if_false, Option.map_map]
    cases Numeral.scan? text with
    | none => rfl
    | some found => simp only [Option.map_some, Function.comp_apply, readNumber_signed, ok_bind]

/-! ## Actions -/

/-- The session after a result. -/
def finishWith (value : Binary64) (s : Session) : Except Slip Session := do
  let text ← displayText value
  .ok { s with expression := text, result := text, answer := value, phase := .finished }

/-- Evaluates the expression, if there is one. -/
def evaluateExpression (s : Session) : Except Slip Session :=
  if s.isBlankExpression then .ok s
  else match evaluate s.expression s.mode s.answer with
    | .ok value => finishWith value s
    | .error (.reported error) => .ok (s.fail error)
    | .error (.slip slip) => .error slip

/-- Takes the factorial of the number that the expression starts with, if it starts with one. -/
def takeFactorial (library : FactorialLibrary) (s : Session) : Except Slip Session := do
  match ← leadingNumber? s.expression with
  | none => .ok s
  | some x =>
    let value ← factorial library x
    finishWith value s

/-- Adds a value to the memory and shows the new total, unless that is not a number. -/
def addToMemory (value : Binary64) (s : Session) : Except Slip Session :=
  let total := s.memory + value
  if total.isNaN then .ok s
  else do
    let text ← displayText total
    .ok { s with memory := total, result := text }

/-- Adds the value of the expression, if there is one, to the memory. -/
def memoryAdd (s : Session) : Except Slip Session :=
  if s.isBlankExpression then .ok s.consumed
  else match evaluate s.expression s.mode s.answer with
    | .ok value => do
      let s ← addToMemory value s
      .ok s.consumed
    | .error (.reported _) => .ok { s.consumed with result := ErrorKind.general.caption }
    | .error (.slip slip) => .error slip

/-- The session after an action. -/
def perform (library : FactorialLibrary) (action : Action) (s : Session) : Except Slip Session :=
  match action with
  | .append text => .ok (s.append text)
  | .evaluate => evaluateExpression s
  | .factorial => takeFactorial library s
  | .deleteLast => .ok s.deleteLast
  | .clear => .ok s.clear
  | .toggleMode => .ok s.toggleMode
  | .memoryAdd => memoryAdd s
  | .memoryClear => .ok s.memoryClear
  | .memoryRecall => do
    let text ← displayText s.memory
    .ok (s.append text)

/-- The session after a token, which has to be known. -/
def press (library : FactorialLibrary) (token : List Char) (s : Session) : Except Slip Session :=
  match Action.ofToken? token with
  | some action => perform library action s
  | none => .error .missingKey

section Actions

variable (library : FactorialLibrary) (s : Session)

theorem finishWith_eq (value : Binary64) : finishWith value s = .ok (s.finishWith value) := by
  rw [finishWith, displayText_eq]
  rfl

theorem addToMemory_eq (value : Binary64) : addToMemory value s = .ok (s.addToMemory value) := by
  unfold addToMemory Session.addToMemory
  dsimp only
  split
  · rfl
  · rw [displayText_eq]
    rfl

/-- What is done with the outcome of an evaluation is the same with and without the checks. -/
theorem evaluate_standard (expression : List Char) (mode : AngleMode) (answer : Binary64) :
    (∃ value, evaluate expression mode answer = .ok value ∧
      standardEvaluator expression mode answer = .ok value) ∨
    ∃ error, evaluate expression mode answer = .error (.reported error) ∧
      standardEvaluator expression mode answer = .error (.reported error) := by
  rw [evaluate_checked, standardEvaluator]
  cases Calculator.evaluate expression mode answer with
  | ok value => exact .inl ⟨value, rfl, rfl⟩
  | error fault => exact .inr ⟨fault.toError, rfl, rfl⟩

theorem perform_evaluate_eq :
    perform library .evaluate s = .ok (s.perform standardEvaluator library .evaluate).1 := by
  rw [perform, evaluateExpression, Session.perform, Session.evaluate]
  split
  · rfl
  · rcases evaluate_standard s.expression s.mode s.answer with
      ⟨value, same, standard⟩ | ⟨error, same, standard⟩
    · rw [same, standard]
      exact finishWith_eq s value
    · rw [same, standard]
      rfl

theorem perform_memoryAdd_eq :
    perform library .memoryAdd s = .ok (s.perform standardEvaluator library .memoryAdd).1 := by
  rw [perform, memoryAdd, Session.perform, Session.memoryAdd]
  split
  · rfl
  · rcases evaluate_standard s.expression s.mode s.answer with
      ⟨value, same, standard⟩ | ⟨error, same, standard⟩
    · rw [same, standard]
      simp only [addToMemory_eq, ok_bind]
    · rw [same, standard]
      rfl

/-- A factorial is taken as it is without the checks, and a failure of the library is a slip. -/
theorem takeFactorial_eq :
    takeFactorial library s =
      ((s.factorial library).map (·.1)).mapError .raised := by
  rw [takeFactorial, leadingNumber?_eq, ok_bind, Session.factorial]
  cases Calculator.leadingNumber? s.expression with
  | none => rfl
  | some x =>
    simp only [factorial_eq]
    cases x.factorial library with
    | error failure => rfl
    | ok value => exact finishWith_eq s value

variable {library}

/-- Every session has a factorial of what it shows. -/
theorem exists_taken (complete : library.IsComplete) :
    ∃ outcome, s.factorial library = .ok outcome := by
  rw [Session.factorial]
  cases Calculator.leadingNumber? s.expression with
  | none => exact ⟨_, rfl⟩
  | some x =>
    obtain ⟨value, found⟩ := exists_factorial complete x
    exact ⟨(s.finishWith value, some (.ok value)), by simp only [found]; rfl⟩

theorem perform_factorial_eq (complete : library.IsComplete) :
    perform library .factorial s = .ok (s.perform standardEvaluator library .factorial).1 := by
  obtain ⟨outcome, taken⟩ := exists_taken s complete
  rw [perform, takeFactorial_eq, Session.perform, taken]
  rfl

/-- Every action goes through all checks and does what it does without them. -/
theorem perform_eq (complete : library.IsComplete) (action : Action) :
    perform library action s = .ok (s.perform standardEvaluator library action).1 := by
  cases action with
  | evaluate => exact perform_evaluate_eq library s
  | memoryAdd => exact perform_memoryAdd_eq library s
  | factorial => exact perform_factorial_eq s complete
  | memoryRecall =>
    rw [perform, displayText_eq]
    rfl
  | append text => rfl
  | deleteLast | clear | toggleMode | memoryClear => rfl

/-- Every token that is known goes through all checks. -/
theorem press_eq (complete : library.IsComplete) {token : List Char}
    (known : (Action.ofToken? token).isSome) :
    press library token s = .ok (s.press standardEvaluator library token).1 := by
  obtain ⟨action, found⟩ := Option.isSome_iff_exists.1 known
  rw [press, found, Session.press_eq_perform standardEvaluator library found]
  exact perform_eq s complete action

end Actions

end Calculator.Checked
