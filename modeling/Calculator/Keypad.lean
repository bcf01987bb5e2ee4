/-!
# Keys and buttons

The keypad has rows of buttons, each of which sends a token. The science buttons send one token or
another, as the inverse functions are chosen or not. Keys of the keyboard send tokens by their names
or by the characters they type.
-/
namespace Calculator

/-- What a key of the keyboard is called, and the token it sends. -/
def namedKeys : List (List Char × List Char) :=
  [("Return".toList, "Enter".toList), ("KP_Enter".toList, "Enter".toList),
    ("Escape".toList, "Escape".toList), ("BackSpace".toList, "Backspace".toList)]

/-- The characters that keys send as they are. -/
def typedCharacters : List Char := "0123456789.+-*/%()^".toList

/-- The token of a key with the character it types and its name, if it has one. -/
def tokenForKey? (typed name : List Char) : Option (List Char) :=
  match namedKeys.lookup name with
  | some token => some token
  | none =>
    match typed with
    | [c] => if typedCharacters.contains c then some typed else none
    | _ => none

/-- The colours of a button: behind its text, and of the text. -/
structure Colours where
  background : List Char
  foreground : List Char
  deriving DecidableEq, Repr

/-- What a button is for decides its colours. -/
inductive ButtonRole where
  | number | operation | function | special | equals
  deriving DecidableEq, Repr

def ButtonRole.colours : ButtonRole → Colours
  | .number => ⟨"#313244".toList, "#CDD6F4".toList⟩
  | .operation => ⟨"#F38BA8".toList, "#1E1E2E".toList⟩
  | .function => ⟨"#45475A".toList, "#CDD6F4".toList⟩
  | .special => ⟨"#585B70".toList, "#CDD6F4".toList⟩
  | .equals => ⟨"#89B4FA".toList, "#1E1E2E".toList⟩

/-- The colours of a toggle that is on or off. -/
def toggleColours : Bool → Colours
  | true => ⟨"#A6E3A1".toList, "#1E1E2E".toList⟩
  | false => ⟨"#585B70".toList, "#CDD6F4".toList⟩

/-- A button of the keypad. -/
structure Key where
  text : List Char
  token : List Char
  role : ButtonRole
  deriving DecidableEq, Repr

namespace Key

/-- A key whose text is its token. -/
def plain (text : List Char) (role : ButtonRole) : Key :=
  ⟨text, text, role⟩

end Key

/-- The rows of the keypad. -/
def keypad : List (List Key) :=
  [[.plain ['^'] .function, .plain ['π'] .function, .plain ['e'] .function,
      .plain ['('] .function, .plain [')'] .function],
    [.plain "AC".toList .special, ⟨['⌫'], "del".toList, .special⟩,
      .plain ['%'] .function, ⟨['÷'], ['/'], .operation⟩],
    [.plain ['7'] .number, .plain ['8'] .number, .plain ['9'] .number,
      ⟨['×'], ['*'], .operation⟩],
    [.plain ['4'] .number, .plain ['5'] .number, .plain ['6'] .number,
      ⟨['−'], ['-'], .operation⟩],
    [.plain ['1'] .number, .plain ['2'] .number, .plain ['3'] .number,
      .plain ['+'] .operation],
    [.plain ['0'] .number, .plain ['.'] .number, .plain "ans".toList .function,
      .plain ['='] .equals]]

/-- A science button, with what it shows and sends in each of its two states. -/
structure ScienceKey where
  text : List Char
  token : List Char
  inverseText : List Char
  inverseToken : List Char
  deriving DecidableEq, Repr

namespace ScienceKey

/-- What a science button shows. -/
def shown (inverse : Bool) (k : ScienceKey) : List Char :=
  if inverse then k.inverseText else k.text

/-- What a science button sends. -/
def sent (inverse : Bool) (k : ScienceKey) : List Char :=
  if inverse then k.inverseToken else k.token

end ScienceKey

def scienceKeys : List ScienceKey :=
  [⟨['√'], "sqrt".toList, "n!".toList, "factorial".toList⟩,
    ⟨"sin".toList, "sin".toList, "sin⁻¹".toList, "arcsin".toList⟩,
    ⟨"cos".toList, "cos".toList, "cos⁻¹".toList, "arccos".toList⟩,
    ⟨"tan".toList, "tan".toList, "tan⁻¹".toList, "arctan".toList⟩,
    ⟨"ln".toList, "ln".toList, "eˣ".toList, "powE".toList⟩,
    ⟨"log".toList, "log".toList, "10ˣ".toList, "pow10".toList⟩]

/-- The memory buttons show their tokens. -/
def memoryKeys : List (List Char) :=
  ["MC".toList, "MR".toList, "M+".toList]

end Calculator
