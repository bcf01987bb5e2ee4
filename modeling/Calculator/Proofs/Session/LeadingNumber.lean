import Mathlib.Data.List.TakeWhile
import Calculator.Proofs.Session.Redisplayed

/-!
# Numbers read in two ways

A text that is a number with a sign or none, after blanks, is read by the factorial as the number at
its start and evaluated as an expression. Both come to the same number: the sign is part of the
number for one of them and an operator for the other one, and infinity is found by its name or as a
constant. The text of a result is such a text unless the result is not a number.
-/
namespace Calculator

/-- The text is a number without a sign: the name of infinity, or a numeral. -/
inductive UnsignedNumber : List Char → Binary64 → Prop
  | infinity : UnsignedNumber infinityName (.infinite .positive)
  | numeral (n : Numeral) : UnsignedNumber n.text n.value

/-- The whole text is a sign or none and a number without a sign. -/
def IsSignedNumber (text : List Char) : Prop :=
  ∃ (sign : Option Sign) (unsigned : List Char) (x : Binary64),
    text = (sign.map Sign.char).toList ++ unsigned ∧ UnsignedNumber unsigned x

/-- The number with a sign in front of it. -/
def Binary64.signedBy (sign : Option Sign) (x : Binary64) : Binary64 :=
  if sign = some .negative then x.neg else x

namespace UnsignedNumber

variable {unsigned : List Char} {x : Binary64}

theorem block (h : UnsignedNumber unsigned x) : Block unsigned := by
  cases h with
  | infinity => exact block_displayText (.infinite .positive)
  | numeral n => exact (operandText_number n).block

/-- It starts neither with a sign nor with a blank. -/
theorem head?_ne (h : UnsignedNumber unsigned x) {c : Char} (digit : digitValue? c = none)
    (point : c ≠ '.') (first : c ≠ 'I') : unsigned.head? ≠ some c := by
  cases h with
  | infinity =>
    intro head
    exact first (Option.some.inj head).symm
  | numeral n => exact n.head?_text_ne digit point

theorem unsignedNumber?_eq (h : UnsignedNumber unsigned x) : unsignedNumber? unsigned = some x := by
  cases h with
  | infinity => rfl
  | numeral n =>
    have other : ¬ infinityName.isPrefixOf n.text = true := by
      intro starts
      obtain ⟨rest, same⟩ := List.isPrefixOf_iff_prefix.1 starts
      exact n.head?_text_ne (c := 'I') (by decide) (by decide) (by rw [← same]; rfl)
    have read := Numeral.scan?_text_append n Numeral.stops_nil
    rw [List.append_nil] at read
    rw [unsignedNumber?, if_neg other, read]
    rfl

/-- Behind a sign or none it is an expression that nests one level at most. -/
theorem denotes (h : UnsignedNumber unsigned x) (sign : Option Sign) :
    ∃ lexemes, Denotes ((sign.map Sign.char).toList ++ unsigned) lexemes 1 (x.signedBy sign) := by
  have isName : IsName infinityName := ⟨⟨'I', rfl, by decide⟩, forall_mem_of_all (by decide)⟩
  cases sign with
  | none =>
    cases h with
    | infinity => exact ⟨_, _, writes_constant isName, rfl, Nat.zero_le _⟩
    | numeral n => exact ⟨_, _, writes_number n, rfl, Nat.zero_le _⟩
  | some s =>
    have symbol : ((some s).map Sign.char).toList = s.symbol.text := by cases s <;> rfl
    have applied : ∀ y, some (s.applyTo y) = some (Binary64.signedBy (some s) y) := by
      cases s <;> exact fun _ => rfl
    rw [symbol]
    cases h with
    | infinity => exact ⟨_, _, Writes.signedConstant s isName, applied _, Nat.le_refl _⟩
    | numeral n => exact ⟨_, _, Writes.signedNumber s n, applied _, Nat.le_refl _⟩

/-- The text of the number with a sign or none is a block. -/
theorem block_signed (h : UnsignedNumber unsigned x) (sign : Option Sign) :
    Block ((sign.map Sign.char).toList ++ unsigned) := by
  cases sign with
  | none => exact h.block
  | some s => exact h.block.sign s

variable {blanks : List Char} (blank : ∀ c ∈ blanks, isBlank c = true) (sign : Option Sign)
include blank

theorem leadingNumber?_eq (h : UnsignedNumber unsigned x) :
    leadingNumber? (blanks ++ ((sign.map Sign.char).toList ++ unsigned)) =
      some (x.signedBy sign) := by
  obtain ⟨c, rest, same, visible⟩ := (h.block_signed sign).start
  have dropped : (blanks ++ ((sign.map Sign.char).toList ++ unsigned)).dropWhile isBlank =
      (sign.map Sign.char).toList ++ unsigned := by
    rw [same, dropWhile_isBlank_append blanks visible, List.dropWhile_eq_nil_iff.2 blank]
    rfl
  have scanned := Sign.scan_append sign (h.head?_ne (c := '+') (by decide) (by decide) (by decide))
    (h.head?_ne (c := '-') (by decide) (by decide) (by decide))
  unfold leadingNumber?
  simp only [dropped, scanned, h.unsignedNumber?_eq]
  rfl

theorem evaluate_eq (h : UnsignedNumber unsigned x)
    (short : (blanks ++ ((sign.map Sign.char).toList ++ unsigned)).length ≤ lengthLimit)
    (mode : AngleMode) (answer : Binary64) :
    evaluate (blanks ++ ((sign.map Sign.char).toList ++ unsigned)) mode answer =
      .ok (x.signedBy sign) := by
  obtain ⟨lexemes, denotes⟩ := h.denotes sign
  have block := h.block_signed sign
  have alone := block.canonical_eq mode answer
  obtain ⟨c, rest, same, visible⟩ := block.start
  have ending := block.ending
  have trimmed : trimBlanks (blanks ++ ((sign.map Sign.char).toList ++ unsigned)) =
      trimBlanks ((sign.map Sign.char).toList ++ unsigned) := by
    rw [same] at ending ⊢
    have front := trimBlanks_append blanks visible ending []
    have none := trimBlanks_append [] visible ending []
    rw [List.append_nil] at front none
    rw [front, List.nil_append] at *
    rw [none, List.dropWhile_eq_nil_iff.2 blank]
    rfl
  rw [evaluate, evaluateWith, canonicalize, if_neg (Nat.not_lt.2 short), ok_bind, canonical,
    trimmed, ← canonical, alone]
  exact denotes.evaluateCanonical_eq (by decide)

end UnsignedNumber

/-- The text of a result is a number, unless the result is not a number. -/
theorem isSignedNumber_displayText {x : Binary64} (number : x ≠ .nan) :
    IsSignedNumber (displayText x) := by
  have signed : ∀ (s : Sign) {unsigned : List Char} {y : Binary64}, UnsignedNumber unsigned y →
      IsSignedNumber (NumberFormat.signed s unsigned) := by
    intro s unsigned y h
    cases s with
    | positive => exact ⟨none, unsigned, y, rfl, h⟩
    | negative => exact ⟨some .negative, unsigned, y, rfl, h⟩
  cases x with
  | nan => exact absurd rfl number
  | infinite s => exact signed s .infinity
  | finite s m =>
    obtain ⟨n, written, -⟩ := NumberFormat.exists_numeral .display rfl
      (NumberFormat.display.digitsOf m)
    have numeral := UnsignedNumber.numeral n
    rw [written] at numeral
    simp only [displayText, NumberFormat.text]
    split
    · exact signed .positive numeral
    · exact signed s numeral

/-- A number with a sign or none after blanks is evaluated, in every angle mode and with every last
answer, to the number that the factorial reads at the start of the same text. The text of each
result but the one that is not a number is such a text, so on a result the factorial acts on the
value that evaluating it again gives. -/
theorem evaluate_signedNumber :
    (∀ blanks text : List Char, (∀ c ∈ blanks, isBlank c = true) → IsSignedNumber text →
      (blanks ++ text).length ≤ lengthLimit → ∃ x, leadingNumber? (blanks ++ text) = some x ∧
        ∀ mode answer, evaluate (blanks ++ text) mode answer = .ok x) ∧
    ∀ v : Binary64, v ≠ .nan → IsSignedNumber (displayText v) ∧
      ∀ s : Session, s.expression = displayText v → ∃ x,
        s.evaluate standardEvaluator = .ok (s.finishWith x, some (.ok x)) ∧
          ∀ library, s.factorial library =
            (x.factorial library).map fun value => (s.finishWith value, some (.ok value)) := by
  have agree : ∀ blanks text : List Char, (∀ c ∈ blanks, isBlank c = true) → IsSignedNumber text →
      (blanks ++ text).length ≤ lengthLimit → ∃ x, leadingNumber? (blanks ++ text) = some x ∧
        ∀ mode answer, evaluate (blanks ++ text) mode answer = .ok x := by
    rintro blanks text blank ⟨sign, unsigned, y, rfl, h⟩ short
    exact ⟨y.signedBy sign, h.leadingNumber?_eq blank sign, h.evaluate_eq blank sign short⟩
  refine ⟨agree, fun v number => ⟨isSignedNumber_displayText number, fun s shown => ?_⟩⟩
  have short : ([] ++ displayText v).length ≤ lengthLimit :=
    Nat.le_trans (NumberFormat.length_display v) (by decide)
  obtain ⟨x, leading, value⟩ := agree [] (displayText v) (by simp)
    (isSignedNumber_displayText number) short
  have same : v.reread = x := Except.ok.inj
    ((evaluate_displayText_eq v s.mode s.answer).symm.trans (value s.mode s.answer))
  refine ⟨x, same ▸ s.evaluate_shown shown, fun library => ?_⟩
  rw [Session.factorial, shown, show leadingNumber? (displayText v) = some x from leading]

/-- A numeral beyond all numbers, behind a sign and blanks, and the result that it gives. -/
theorem evaluate_signedNumber_overflow :
    let result := (Session.start .degrees).finishWith (.infinite .negative)
    (∀ c ∈ ['\t', ' '], isBlank c = true) ∧ IsSignedNumber "-.5E400".toList ∧
      leadingNumber? "\t -.5E400".toList = some (.infinite .negative) ∧
      evaluate "\t -.5E400".toList .degrees .zero = .ok (.infinite .negative) ∧
      ∃ x : Binary64, result.evaluate standardEvaluator =
          .ok (result.finishWith x, some (.ok x)) ∧
        result.factorial .series =
          (x.factorial .series).map fun value => (result.finishWith value, some (.ok value)) := by
  intro result
  have blank : ∀ c ∈ ['\t', ' '], isBlank c = true := forall_mem_of_all (by decide)
  have digits : ∃ five four zero : Digit, five.char = '5' ∧ four.char = '4' ∧ zero.char = '0' :=
    ⟨⟨'5', 5, by decide⟩, ⟨'4', 4, by decide⟩, ⟨'0', 0, by decide⟩, rfl, rfl, rfl⟩
  obtain ⟨five, four, zero, isFive, isFour, isZero⟩ := digits
  have number : IsSignedNumber "-.5E400".toList := by
    let n : Numeral := ⟨[], some [five], some ⟨none, [four, zero, zero], by simp⟩, by simp⟩
    have text : n.text = ".5E400".toList := by
      simp [n, Numeral.text, Numeral.fractionText, Numeral.powerText, PowerOfTen.text, Digit.text,
        isFive, isFour, isZero]
    exact ⟨some .negative, n.text, n.value, by rw [text]; rfl, .numeral n⟩
  obtain ⟨agree, shown⟩ := evaluate_signedNumber
  obtain ⟨x, leading, value⟩ := agree ['\t', ' '] _ blank number (by decide)
  have read : leadingNumber? "\t -.5E400".toList = some (.infinite .negative) := by decide +kernel
  have same : x = .infinite .negative := Option.some.inj (leading.symm.trans read)
  obtain ⟨y, evaluated, factorial⟩ := (shown (.infinite .negative) (by simp)).2 result rfl
  exact ⟨blank, number, read, same ▸ value .degrees .zero, y, evaluated, factorial .series⟩

end Calculator
