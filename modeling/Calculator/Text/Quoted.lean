import Calculator.Text.Printable

/-!
# Quoted text

Messages show characters and words in quotation marks. Single marks are used unless the text holds a
single mark and no double one; the mark in use, the backslash and unprintable characters are written
as escapes.
-/
namespace Calculator

/-- The hexadecimal digits of a number, filled with zeros to a width. -/
def hexadecimal (width n : Nat) : List Char :=
  let digits := Nat.toDigits 16 n
  List.replicate (width - digits.length) '0' ++ digits

/-- The escape of a character between the given marks, or the character itself. -/
def escape (mark c : Char) : List Char :=
  if c = mark ∨ c = '\\' then ['\\', c]
  else if c = '\t' then ['\\', 't']
  else if c = '\n' then ['\\', 'n']
  else if c = '\r' then ['\\', 'r']
  else if isPrintable c then [c]
  else if c.toNat < 0x100 then '\\' :: 'x' :: hexadecimal 2 c.toNat
  else if c.toNat < 0x10000 then '\\' :: 'u' :: hexadecimal 4 c.toNat
  else '\\' :: 'U' :: hexadecimal 8 c.toNat

/-- The mark that a text is quoted with. -/
def quotationMark (text : List Char) : Char :=
  if '\'' ∈ text ∧ '"' ∉ text then '"' else '\''

/-- The text in quotation marks. -/
def quoted (text : List Char) : List Char :=
  let mark := quotationMark text
  mark :: text.flatMap (escape mark) ++ [mark]

/-- The mark depends on the marks inside, and escapes have three widths. -/
example :
    ["it's", "say \"it's\"", "\\", "\n", "\u200b", "é"].map (fun text => quoted text.toList) =
    ["\"it's\"", "'say \"it\\'s\"'", "'\\\\'", "'\\n'", "'\\u200b'", "'é'"].map
      String.toList := by decide +kernel

end Calculator
