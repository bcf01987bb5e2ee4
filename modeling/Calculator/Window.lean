import Calculator.Keypad
import Calculator.Session.Operation

/-!
# The calculator window

The window shows the expression and the result of a session, the angle mode, and whether the inverse
functions are chosen. Each key or button sends its token to the session, and then the fields are
written anew from the session. The session evaluates over the standard registry, and takes factorials
between whole numbers from a library.
-/
namespace Calculator

structure Window where
  session : Session
  inverse : Bool
  expressionField : List Char
  resultField : List Char
  angleText : List Char
  inverseColours : Colours
  scienceTexts : List (List Char)
  deriving DecidableEq

namespace Window

/-- Writes the fields anew from the session. -/
def refresh (w : Window) : Window :=
  { w with
    expressionField := w.session.expression
    resultField := w.session.result
    angleText := w.session.mode.label }

/-- A new window on a session. -/
def openOn (session : Session) : Window :=
  refresh
    { session := session
      inverse := false
      expressionField := []
      resultField := []
      angleText := []
      inverseColours := toggleColours false
      scienceTexts := scienceKeys.map (·.text) }

/-- Sends a token to the session; a token that is refused leaves the fields as they were. -/
def press (library : FactorialLibrary) (token : List Char) (w : Window) :
    Window × Option Refusal :=
  match w.session.press standardEvaluator library token with
  | (session, .refused refusal) => ({ w with session := session }, some refusal)
  | (session, _) => (refresh { w with session := session }, none)

/-- Chooses between the science functions and their inverses. -/
def toggleInverse (w : Window) : Window :=
  let inverse := !w.inverse
  { w with
    inverse := inverse
    inverseColours := toggleColours inverse
    scienceTexts := scienceKeys.map (·.shown inverse) }

/-- What a button does. -/
inductive ButtonAction where
  | toggleInverse
  | send (token : List Char)
  deriving DecidableEq, Repr

/-- The buttons with the texts they show now, and what they do. -/
def buttons (w : Window) : List (List Char × ButtonAction) :=
  [(w.angleText, .send "mode".toList), ("INV".toList, .toggleInverse)] ++
    memoryKeys.map (fun token => (token, .send token)) ++
    w.scienceTexts.zip (scienceKeys.map fun key => .send (key.sent w.inverse)) ++
    keypad.flatten.map fun key => (key.text, .send key.token)

/-- What an event on the window answers. -/
inductive Response where
  /-- The event was used. -/
  | used
  /-- The event means nothing to the window. -/
  | ignored
  | refused (refusal : Refusal)
  deriving DecidableEq, Repr

/-- Sends a token and answers that the event was used. -/
def sendToken (library : FactorialLibrary) (token : List Char) (w : Window) : Window × Response :=
  match w.press library token with
  | (w, none) => (w, .used)
  | (w, some refusal) => (w, .refused refusal)

/-- A key of the keyboard, with the character it types and its name. -/
def key (library : FactorialLibrary) (typed name : List Char) (w : Window) : Window × Response :=
  match tokenForKey? typed name with
  | none => (w, .ignored)
  | some token => w.sendToken library token

/-- A click on the button that shows a text now. -/
def click (library : FactorialLibrary) (text : List Char) (w : Window) : Window × Response :=
  match w.buttons.lookup text with
  | none => (w, .ignored)
  | some .toggleInverse => (w.toggleInverse, .used)
  | some (.send token) => w.sendToken library token

end Window

end Calculator
