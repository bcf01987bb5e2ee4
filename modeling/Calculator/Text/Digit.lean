/-!
# Decimal digits

Every script with decimal digits has ten of them in a row, from zero to nine. A digit character is
known by the zero of its run, and its value is the distance to that zero.
-/
namespace Calculator

/-- The code points of the zeros of all runs of decimal digits. -/
def digitZeros : List Nat := [
  0x0030, 0x0660, 0x06F0, 0x07C0, 0x0966, 0x09E6, 0x0A66, 0x0AE6, 0x0B66, 0x0BE6, 0x0C66, 0x0CE6,
  0x0D66, 0x0DE6, 0x0E50, 0x0ED0, 0x0F20, 0x1040, 0x1090, 0x17E0, 0x1810, 0x1946, 0x19D0, 0x1A80,
  0x1A90, 0x1B50, 0x1BB0, 0x1C40, 0x1C50, 0xA620, 0xA8D0, 0xA900, 0xA9D0, 0xA9F0, 0xAA50, 0xABF0,
  0xFF10, 0x104A0, 0x10D30, 0x11066, 0x110F0, 0x11136, 0x111D0, 0x112F0, 0x11450, 0x114D0,
  0x11650, 0x116C0, 0x11730, 0x118E0, 0x11950, 0x11C50, 0x11D50, 0x11DA0, 0x16A60, 0x16AC0,
  0x16B50, 0x1D7CE, 0x1D7D8, 0x1D7E2, 0x1D7EC, 0x1D7F6, 0x1E140, 0x1E2F0, 0x1E950, 0x1FBF0]

/-- The value of a decimal digit of any script. -/
def digitValue? (c : Char) : Option Nat :=
  (digitZeros.find? fun first => first ≤ c.toNat && c.toNat ≤ first + 9).map (c.toNat - ·)

/-- Digits of several scripts, and characters that only look like digits. -/
example : ['7', '٣', '५', '２', '𝟙'].map digitValue? = [some 7, some 3, some 5, some 2, some 1] := by
  decide +kernel

example : ['²', '½', '①', 'Ⅷ'].map digitValue? = [none, none, none, none] := by
  decide +kernel

/-- A decimal digit of any script, with its value. -/
structure Digit where
  char : Char
  value : Nat
  isDigit : digitValue? char = some value
  deriving DecidableEq

namespace Digit

/-- The character as a digit, if it is one. -/
def ofChar? (c : Char) : Option Digit :=
  match h : digitValue? c with
  | some value => some ⟨c, value, h⟩
  | none => none

/-- The longest run of digits at the start of a text, and what follows it. -/
def takeRun : List Char → List Digit × List Char
  | [] => ([], [])
  | c :: rest =>
    match ofChar? c with
    | some d => ((d :: (takeRun rest).1), (takeRun rest).2)
    | none => ([], c :: rest)

/-- The text of a run of digits. -/
def text (digits : List Digit) : List Char :=
  digits.map (·.char)

/-- The number that a run of digits writes. -/
def number (digits : List Digit) : Nat :=
  digits.foldl (fun n d => 10 * n + d.value) 0

theorem char_of_ofChar? {c : Char} {d : Digit} (h : ofChar? c = some d) : d.char = c := by
  unfold ofChar? at h
  split at h
  · cases h; rfl
  · cases h

/-- A run and what follows it are the whole text. -/
theorem text_append_takeRun (cs : List Char) : text (takeRun cs).1 ++ (takeRun cs).2 = cs := by
  induction cs with
  | nil => rfl
  | cons c rest ih =>
    unfold takeRun
    split
    · rename_i d h
      simp only [text, List.map_cons, List.cons_append, List.cons.injEq]
      exact ⟨char_of_ofChar? h, ih⟩
    · rfl

/-- What follows a run does not start with a digit. -/
theorem ofChar?_head_takeRun (cs : List Char) : (takeRun cs).2.head?.bind ofChar? = none := by
  induction cs with
  | nil => rfl
  | cons c rest ih =>
    unfold takeRun
    split
    · exact ih
    · assumption

end Digit

end Calculator
