/-!
# Blank characters

Blanks separate tokens and are dropped at both ends of an expression. They are the tabulators, line
ends, separators and spaces of every script; a zero-width space is not one of them.
-/
namespace Calculator

/-- A tabulator, a line end, a separator or a space. -/
def isBlank (c : Char) : Bool :=
  let n := c.toNat
  (0x09 ≤ n && n ≤ 0x0D) || (0x1C ≤ n && n ≤ 0x20) || n == 0x85 || n == 0xA0 || n == 0x1680 ||
    (0x2000 ≤ n && n ≤ 0x200A) || n == 0x2028 || n == 0x2029 || n == 0x202F || n == 0x205F ||
    n == 0x3000

/-- The text without the blanks at its end. -/
def dropBlankEnd : List Char → List Char
  | [] => []
  | c :: rest =>
    let rest := dropBlankEnd rest
    if rest.isEmpty && isBlank c then [] else c :: rest

/-- The text without the blanks at either end. -/
def trimBlanks (text : List Char) : List Char :=
  dropBlankEnd (text.dropWhile isBlank)

/-- What core counts as white space is blank. -/
theorem isBlank_of_isWhitespace {c : Char} (h : c.isWhitespace) : isBlank c := by
  simp only [Char.isWhitespace, Bool.or_eq_true, decide_eq_true_eq] at h
  rcases h with ((h | h) | h) | h <;> subst h <;> decide

theorem dropBlankEnd_eq_self {text : List Char} (h : ∀ c ∈ text, isBlank c = false) :
    dropBlankEnd text = text := by
  induction text with
  | nil => rfl
  | cons c rest ih =>
    have first := h c List.mem_cons_self
    have further := ih fun c member => h c (List.mem_cons_of_mem _ member)
    rw [dropBlankEnd, further, first, Bool.and_false]
    rfl

/-- A text without blanks stays. -/
theorem trimBlanks_eq_self {text : List Char} (h : ∀ c ∈ text, isBlank c = false) :
    trimBlanks text = text := by
  have noStart : text.dropWhile isBlank = text := by
    cases text with
    | nil => rfl
    | cons c rest =>
      rw [List.dropWhile_cons, h c List.mem_cons_self]
      rfl
  rw [trimBlanks, noStart, dropBlankEnd_eq_self h]

/-- Line ends of all kinds are blank, and zero-width spaces are not. -/
example : ['\n', '\x0c', '\x1c', '\x85', '\u2028', '\u3000'].all isBlank := by decide

example : ['\u180e', '\u200b', '\ufeff'].all (!isBlank ·) := by decide

end Calculator
