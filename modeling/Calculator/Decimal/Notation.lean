import Calculator.Decimal.Digits

/-!
# Number texts

A number is written positionally while the exponent of its leading digit is moderate, and otherwise
with one digit before the point and a power of ten of at least two digits. The choices that differ
between the calculator's texts are one record, with a value for each kind of text.
-/
namespace Calculator

/-- How a number is written. -/
structure NumberFormat where
  /-- The count of significant digits, or as few as read back if there is none. -/
  significantDigits : Option Nat
  /-- The first leading exponent that is written as a power of ten. -/
  positionalBelow : Int
  /-- Whole numbers end in a point and a zero. -/
  pointZero : Bool
  /-- The mark before a power of ten. -/
  exponentMark : Char
  /-- A minus sign is written before negative zero. -/
  signedZero : Bool
  nanName : List Char
  infinityName : List Char

namespace NumberFormat

/-- Literals of expressions, which the evaluator reads back as the same number. -/
def literal : NumberFormat :=
  ⟨none, 16, true, 'E', true, "NaN".toList, "Infinity".toList⟩

/-- Results on the display have up to fifteen significant digits. -/
def display : NumberFormat :=
  ⟨some 15, 15, false, 'E', false, "NaN".toList, "Infinity".toList⟩

/-- Numbers in messages have as few digits as read back. -/
def message : NumberFormat :=
  ⟨none, 16, true, 'e', true, "nan".toList, "inf".toList⟩

/-- The least leading exponent that is written positionally. -/
def leastPositional : Int := -4

/-- A fraction after the digits of a whole number, if the format wants one. -/
def wholeEnd (f : NumberFormat) : List Char :=
  if f.pointZero then ['.', '0'] else []

/-- Digits with the point after the first `point` of them. -/
def positional (f : NumberFormat) (digits : List Char) (point : Int) : List Char :=
  match point with
  | .negSucc p => ['0', '.'] ++ List.replicate (p + 1) '0' ++ digits
  | .ofNat 0 => ['0', '.'] ++ digits
  | .ofNat p =>
    if digits.length ≤ p then digits ++ List.replicate (p - digits.length) '0' ++ f.wholeEnd
    else digits.take p ++ '.' :: digits.drop p

/-- The power of ten after a mark, with a sign and at least two digits. -/
def power (f : NumberFormat) (exponent : Int) : List Char :=
  let digits := Nat.toDigits 10 exponent.natAbs
  f.exponentMark :: (if exponent < 0 then '-' else '+') ::
    (List.replicate (2 - digits.length) '0' ++ digits)

/-- Digits with the point after the first of them, and a power of ten. -/
def scientific (f : NumberFormat) (digits : List Char) (exponent : Int) : List Char :=
  digits.take 1 ++ (if digits.length ≤ 1 then [] else '.' :: digits.drop 1) ++ f.power exponent

/-- The text of a decimal. -/
def decimalText (f : NumberFormat) (d : Decimal) : List Char :=
  let d := d.trim
  let digits := Nat.toDigits 10 d.digits
  let exponent := if d.digits = 0 then 0 else d.leadingExponent
  if leastPositional ≤ exponent ∧ exponent < f.positionalBelow then
    f.positional digits (exponent + 1)
  else f.scientific digits exponent

/-- The decimal that is written for a magnitude. -/
def digitsOf (f : NumberFormat) (m : Magnitude) : Decimal :=
  if m.quanta = 0 then ⟨0, 0⟩
  else match f.significantDigits with
    | some count => m.significant count
    | none => m.shortest

/-- A minus sign before a text that stands for something negative. -/
def signed (s : Sign) (text : List Char) : List Char :=
  match s with
  | .positive => text
  | .negative => '-' :: text

/-- The text of a number. -/
def text (f : NumberFormat) (x : Binary64) : List Char :=
  match x with
  | .nan => f.nanName
  | .infinite s => signed s f.infinityName
  | .finite s m =>
    let body := f.decimalText (f.digitsOf m)
    if m.quanta = 0 ∧ ¬ f.signedZero then body else signed s body

/-- The ends of the positional range, and the least and the greatest number. -/
example :
    ([⟨1, -4⟩, ⟨1, -5⟩, ⟨1234567890123456, 0⟩, ⟨1, 16⟩, ⟨5, -324⟩, ⟨17976931348623157, 292⟩] :
      List Decimal).map (fun d => message.text (.ofDecimal .positive d)) =
    ["0.0001", "1e-05", "1234567890123456.0", "1e+16", "5e-324", "1.7976931348623157e+308"].map
      String.toList := by decide +kernel

/-- The display rounds to fifteen digits and shows no sign before zero. -/
example :
    ([⟨1, 15⟩, ⟨123456789012345, 0⟩, ⟨2, -1⟩, ⟨0, 0⟩, ⟨12345678901234565, -30⟩] :
      List Decimal).map (fun d => display.text (.ofDecimal .negative d)) =
    ["-1E+15", "-123456789012345", "-0.2", "0", "-1.23456789012346E-14"].map
      String.toList := by decide +kernel

end NumberFormat

end Calculator
