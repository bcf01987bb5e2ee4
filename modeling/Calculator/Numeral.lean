import Calculator.Decimal.Basic
import Calculator.Text.Digit

/-!
# Numerals

A numeral is a run of digits with at most one point in or around it, and may end in a power of ten
marked by a capital E. It keeps its characters, so that its text can be shown again, and it stands
for the binary64 number nearest to its value.
-/
namespace Calculator

/-- A power of ten after a numeral: the mark, a sign or none, and digits. -/
structure PowerOfTen where
  sign : Option Sign
  digits : List Digit
  digits_ne_nil : digits ≠ []
  deriving DecidableEq

/-- Digits before the point, digits after it if there is one, and a power of ten. There is a digit
on at least one side of the point. -/
structure Numeral where
  whole : List Digit
  fraction : Option (List Digit)
  power : Option PowerOfTen
  digits_ne_nil : whole ++ fraction.getD [] ≠ []
  deriving DecidableEq

/-- The character of a sign. -/
def Sign.char : Sign → Char
  | .positive => '+'
  | .negative => '-'

/-- The sign at the start of a text, and what follows it. -/
def Sign.scan : List Char → Option Sign × List Char
  | '+' :: rest => (some .positive, rest)
  | '-' :: rest => (some .negative, rest)
  | text => (none, text)

theorem Sign.char_append_scan (cs : List Char) :
    ((Sign.scan cs).1.map Sign.char).toList ++ (Sign.scan cs).2 = cs := by
  unfold Sign.scan
  split <;> rfl

namespace PowerOfTen

/-- The power of ten at the start of a text, and what follows it. -/
def scan? : List Char → Option (PowerOfTen × List Char)
  | 'E' :: text =>
    let (sign, text) := Sign.scan text
    let (digits, rest) := Digit.takeRun text
    if h : digits ≠ [] then some (⟨sign, digits, h⟩, rest) else none
  | _ => none

def text (p : PowerOfTen) : List Char :=
  'E' :: (p.sign.map Sign.char).toList ++ Digit.text p.digits

def value (p : PowerOfTen) : Int :=
  (p.sign.getD .positive).apply (Digit.number p.digits)

theorem text_append_of_scan? {cs rest : List Char} {p : PowerOfTen}
    (h : scan? cs = some (p, rest)) : p.text ++ rest = cs := by
  unfold scan? at h
  split at h
  · rename_i cs
    dsimp only at h
    split at h
    · cases h
      simp only [text, List.cons_append, List.append_assoc, Digit.text_append_takeRun,
        Sign.char_append_scan]
    · cases h
  · cases h

end PowerOfTen

namespace Numeral

/-- The digits after a point at the start of a text, and what follows them. -/
def scanFraction : List Char → Option (List Digit) × List Char
  | '.' :: text =>
    let (digits, rest) := Digit.takeRun text
    (some digits, rest)
  | text => (none, text)

/-- The longest numeral at the start of a text, and what follows it. -/
def scan? (text : List Char) : Option (Numeral × List Char) :=
  let (whole, text) := Digit.takeRun text
  let (fraction, text) := scanFraction text
  if h : whole ++ fraction.getD [] ≠ [] then
    match PowerOfTen.scan? text with
    | some (power, rest) => some (⟨whole, fraction, some power, h⟩, rest)
    | none => some (⟨whole, fraction, none, h⟩, text)
  else none

/-- The point and the digits after it, if there is a point. -/
def fractionText : Option (List Digit) → List Char
  | some digits => '.' :: Digit.text digits
  | none => []

/-- The power of ten, if there is one. -/
def powerText : Option PowerOfTen → List Char
  | some power => power.text
  | none => []

/-- The characters of a numeral. -/
def text (n : Numeral) : List Char :=
  Digit.text n.whole ++ fractionText n.fraction ++ powerText n.power

/-- The exponent of a power of ten; without one it is zero. -/
def powerValue : Option PowerOfTen → Int
  | some power => power.value
  | none => 0

/-- The exact value: all digits as one number, scaled by the power of ten and the fraction. -/
def decimal (n : Numeral) : Decimal :=
  let fraction := n.fraction.getD []
  ⟨Digit.number (n.whole ++ fraction), powerValue n.power - fraction.length⟩

/-- The number that a numeral stands for. -/
def value (n : Numeral) : Binary64 :=
  .ofDecimal .positive n.decimal

/-- A numeral has a character. -/
theorem text_ne_nil (n : Numeral) : n.text ≠ [] := by
  intro h
  have digits := n.digits_ne_nil
  simp only [text, List.append_eq_nil_iff, Digit.text, List.map_eq_nil_iff] at h
  obtain ⟨⟨whole, fraction⟩, -⟩ := h
  cases found : n.fraction with
  | none => simp [whole, found] at digits
  | some ds => simp [found, fractionText] at fraction

theorem fractionText_append_scanFraction (cs : List Char) :
    fractionText (scanFraction cs).1 ++ (scanFraction cs).2 = cs := by
  match cs with
  | [] => rfl
  | c :: rest =>
    by_cases h : c = '.'
    · subst h
      simp only [scanFraction, fractionText, List.cons_append, Digit.text_append_takeRun]
    · simp [scanFraction, fractionText, h]

/-- A numeral is the start of the text it was taken from. -/
theorem text_append_of_scan? {cs rest : List Char} {n : Numeral}
    (h : scan? cs = some (n, rest)) : n.text ++ rest = cs := by
  have whole := Digit.text_append_takeRun cs
  have fraction := fractionText_append_scanFraction (Digit.takeRun cs).2
  unfold scan? at h
  dsimp only at h
  split at h
  · split at h
    · rename_i power found
      cases h
      have tail := PowerOfTen.text_append_of_scan? found
      simp only [text, powerText, List.append_assoc, tail, fraction, whole]
    · cases h
      simp only [text, powerText, List.append_assoc, List.nil_append, fraction, whole]
  · cases h

end Numeral

end Calculator
