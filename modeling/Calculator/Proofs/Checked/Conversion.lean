import Calculator.Proofs.Checked.Arithmetic
import Calculator.Proofs.Token.Spelling
import Calculator.Session.LeadingNumber

/-!
# Whole texts converted to numbers

A text is converted to a number if all of it, but for blanks at its ends, is a sign or none and then
digits or the name of what is not finite. Single underscores may separate digits, there is at most one
point, in the digits or around them, and a power of ten may follow its mark. Letters are of either
case. Whatever else is written is refused. The texts that are converted here, which are numerals and
the name of infinity with a sign or none, are among those that are accepted.
-/
namespace Calculator.Checked

/-! ## Numbers as they are written -/

/-- The digits of a text of digits, of which single underscores may separate any two. -/
def digitPart? : List Char → Option (List Digit)
  | [] => none
  | [c] => (Digit.ofChar? c).map ([·])
  | c :: '_' :: rest => do
    let d ← Digit.ofChar? c
    let digits ← digitPart? rest
    some (d :: digits)
  | c :: rest => do
    let d ← Digit.ofChar? c
    let digits ← digitPart? rest
    some (d :: digits)

/-- The text up to the first character of a kind and, if there is one, the text behind it. -/
def cutAt (kind : Char → Bool) (text : List Char) : List Char × Option (List Char) :=
  (text.takeWhile fun c => !kind c, (text.dropWhile fun c => !kind c).tail?)

/-- The digits of a text that may also be empty. -/
def optionalDigits? (text : List Char) : Option (List Digit) :=
  if text = [] then some [] else digitPart? text

/-- The digits before a point and those behind it. On one side of it they may be missing. -/
def mantissa? (text : List Char) : Option (List Digit × List Digit) :=
  match cutAt (· == '.') text with
  | (whole, none) => (digitPart? whole).map (·, [])
  | (whole, some fraction) =>
    if whole = [] ∧ fraction = [] then none
    else do
      let whole ← optionalDigits? whole
      let fraction ← optionalDigits? fraction
      some (whole, fraction)

/-- The exponent of a power of ten, as it is written behind the mark. -/
def exponent? (text : List Char) : Option Int :=
  let (sign, digits) := Sign.scan text
  (digitPart? digits).map fun digits => (sign.getD .positive).apply (Digit.number digits)

/-- The mark of a power of ten, in either case. -/
def isPowerMark (c : Char) : Bool :=
  c == 'e' || c == 'E'

/-- A number that is written with digits. -/
def digitNumber? (text : List Char) : Option Binary64 := do
  let (mantissa, power) := cutAt isPowerMark text
  let (whole, fraction) ← mantissa? mantissa
  let exponent ← power.elim (some 0) exponent?
  some (.ofDecimal .positive ⟨Digit.number (whole ++ fraction), exponent - fraction.length⟩)

/-- What is not finite, by its name in letters of either case. -/
def namedNumber? (text : List Char) : Option Binary64 :=
  let name := text.map Char.toLower
  if name = "inf".toList ∨ name = "infinity".toList then some (.infinite .positive)
  else if name = "nan".toList then some .nan
  else none

/-- The number that a whole text stands for. -/
def readNumber (text : List Char) : Except Slip Binary64 :=
  let (sign, unsigned) := Sign.scan (trimBlanks text)
  match (digitNumber? unsigned).or (namedNumber? unsigned) with
  | some x => .ok (if sign = some .negative then x.neg else x)
  | none => .error .badValue

/-! ## Numerals are accepted -/

/-- A property of digits holds in their text. -/
theorem forall_mem_digits {P : Char → Prop} (digit : ∀ d : Digit, P d.char) (digits : List Digit) :
    ∀ c ∈ Digit.text digits, P c := by
  intro c member
  obtain ⟨d, -, rfl⟩ := List.mem_map.1 member
  exact digit d

theorem digitPart?_text {digits : List Digit} (nonempty : digits ≠ []) :
    digitPart? (Digit.text digits) = some digits := by
  induction digits with
  | nil => exact absurd rfl nonempty
  | cons d digits ih =>
    cases digits with
    | nil => simp [Digit.text, digitPart?, Digit.ofChar?_char]
    | cons d' digits =>
      have separator : d'.char ≠ '_' := Digit.char_ne (by decide) d'
      have further := ih (List.cons_ne_nil _ _)
      simp only [Digit.text, List.map_cons] at further ⊢
      rw [digitPart?, Digit.ofChar?_char, further]
      · rfl
      · simp
      · intro rest same
        exact separator (List.head_eq_of_cons_eq same)

theorem text_eq_nil_iff (digits : List Digit) : Digit.text digits = [] ↔ digits = [] :=
  List.map_eq_nil_iff

theorem optionalDigits?_text (digits : List Digit) :
    optionalDigits? (Digit.text digits) = some digits := by
  by_cases empty : digits = []
  · rw [empty]
    rfl
  · rw [optionalDigits?, if_neg (mt (text_eq_nil_iff digits).1 empty), digitPart?_text empty]

/-- A text is cut behind a front without a character of the kind. -/
theorem cutAt_front {kind : Char → Bool} {front : List Char} (other : ∀ c ∈ front, kind c = false)
    (rest : List Char) :
    cutAt kind (front ++ rest) = (front ++ (cutAt kind rest).1, (cutAt kind rest).2) := by
  have kept : ∀ c ∈ front, (!kind c) = true := fun c member => by
    rw [other c member]
    rfl
  rw [cutAt, List.takeWhile_append_of_pos kept, List.dropWhile_append_of_pos kept]
  rfl

theorem mantissa?_text (n : Numeral) :
    mantissa? (Digit.text n.whole ++ Numeral.fractionText n.fraction) =
      some (n.whole, n.fraction.getD []) := by
  have noPoint : ∀ c ∈ Digit.text n.whole, (c == '.') = false :=
    forall_mem_digits (fun d => beq_eq_false_iff_ne.2 (Digit.char_ne (by decide) d)) _
  have digits := n.digits_ne_nil
  rw [mantissa?, cutAt_front noPoint]
  cases fraction : n.fraction with
  | none =>
    rw [fraction, Option.getD_none, List.append_nil] at digits
    have cut : cutAt (· == '.') (Numeral.fractionText none) = ([], none) := rfl
    simp only [cut, List.append_nil, digitPart?_text digits]
    rfl
  | some ds =>
    rw [fraction, Option.getD_some, Ne, List.append_eq_nil_iff] at digits
    have cut : cutAt (· == '.') (Numeral.fractionText (some ds)) = ([], some (Digit.text ds)) := rfl
    simp only [cut, List.append_nil, text_eq_nil_iff, if_neg digits, optionalDigits?_text]
    rfl

/-- Signs are read off in front of digits. -/
theorem scan_digits (sign : Option Sign) (digits : List Digit) :
    Sign.scan ((sign.map Sign.char).toList ++ Digit.text digits) = (sign, Digit.text digits) := by
  refine Sign.scan_append sign (fun head => ?_) fun head => ?_
  · exact forall_mem_digits (P := (· ≠ '+')) (Digit.char_ne (by decide)) digits _
      (List.mem_of_mem_head? head) rfl
  · exact forall_mem_digits (P := (· ≠ '-')) (Digit.char_ne (by decide)) digits _
      (List.mem_of_mem_head? head) rfl

theorem exponent?_text (p : PowerOfTen) :
    exponent? ((p.sign.map Sign.char).toList ++ Digit.text p.digits) = some p.value := by
  simp only [exponent?, scan_digits, digitPart?_text p.digits_ne_nil]
  rfl

theorem digitNumber?_text (n : Numeral) : digitNumber? n.text = some n.value := by
  have digit : ∀ d : Digit, isPowerMark d.char = false := fun d => by
    rw [isPowerMark, beq_eq_false_iff_ne.2 (Digit.char_ne (by decide) d),
      beq_eq_false_iff_ne.2 (Digit.char_ne (by decide) d), Bool.or_self]
  -- neither a digit nor the point is the mark, so the text is cut behind the fraction
  have noMark : ∀ c ∈ Digit.text n.whole ++ Numeral.fractionText n.fraction,
      isPowerMark c = false := by
    intro c member
    rcases List.mem_append.1 member with whole | fraction
    · exact forall_mem_digits (P := (isPowerMark · = false)) digit _ c whole
    · cases found : n.fraction with
      | none => simp [found, Numeral.fractionText] at fraction
      | some ds =>
        rw [found, Numeral.fractionText, List.mem_cons] at fraction
        rcases fraction with rfl | fraction
        · rfl
        · exact forall_mem_digits (P := (isPowerMark · = false)) digit _ c fraction
  rw [digitNumber?, Numeral.text, cutAt_front noMark]
  cases power : n.power with
  | none =>
    have cut : cutAt isPowerMark (Numeral.powerText none) = ([], none) := rfl
    simp only [cut, List.append_nil, mantissa?_text, Option.bind_eq_bind, Option.bind_some,
      Option.elim_none]
    rw [Numeral.value, Numeral.decimal, power]
    rfl
  | some p =>
    have cut : cutAt isPowerMark (Numeral.powerText (some p)) =
        ([], some ((p.sign.map Sign.char).toList ++ Digit.text p.digits)) := rfl
    simp only [cut, List.append_nil, mantissa?_text, Option.bind_eq_bind, Option.bind_some,
      Option.elim_some, exponent?_text]
    rw [Numeral.value, Numeral.decimal, power]
    rfl

theorem readNumber_signed (sign : Option Sign) (n : Numeral) :
    readNumber ((sign.map Sign.char).toList ++ n.text) =
      .ok (if sign = some .negative then n.value.neg else n.value) := by
  have visible : ∀ c ∈ (sign.map Sign.char).toList ++ n.text, isBlank c = false := by
    intro c member
    rcases List.mem_append.1 member with signed | inside
    · cases sign with
      | none => cases signed
      | some sign =>
        rw [List.mem_singleton.1 signed]
        cases sign <;> decide
    · exact n.forall_mem_text (P := (isBlank · = false)) Digit.isBlank_char
        (forall_mem_of_all (by decide)) c inside
  have scanned := Sign.scan_append sign (n.head?_text_ne (by decide) (by decide))
    (n.head?_text_ne (by decide) (by decide))
  rw [readNumber, trimBlanks_eq_self visible, scanned]
  simp only [digitNumber?_text, Option.some_or]

/-- The text of a numeral is read as its value. -/
theorem readNumber_text (n : Numeral) : readNumber n.text = .ok n.value :=
  readNumber_signed none n

/-- The name of infinity. -/
theorem readNumber_infinity (sign : Option Sign) :
    readNumber ((sign.map Sign.char).toList ++ infinityName) =
      .ok (if sign = some .negative then (Binary64.infinite .positive).neg
        else .infinite .positive) := by
  match sign with
  | none => rfl
  | some .positive => rfl
  | some .negative => rfl

/-- Blanks may stand at the ends and single underscores between digits. -/
example : [" 1_0.5e-1", "5.\n", "-iNF", "1__0", "1_", "1e", ".", "- 1"].map
    (fun text => (readNumber text.toList).toOption) =
      [some (.ofDecimal .positive ⟨105, -2⟩), some (.ofNat 5), some (.infinite .negative), none, none,
        none, none, none] := by
  decide +kernel

end Calculator.Checked
