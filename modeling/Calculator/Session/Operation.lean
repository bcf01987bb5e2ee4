import Calculator.Session.Basic

/-!
# Operations on a session

A session is driven by actions, by tokens that stand for actions, and by choosing the angle mode.
Tokens are key names, the names of surface functions, and single characters of expressions.
-/
namespace Calculator

inductive Action where
  | append (text : List Char)
  | evaluate | factorial | deleteLast | clear | toggleMode | memoryAdd | memoryClear | memoryRecall
  deriving DecidableEq, Repr

/-- The characters that are tokens of their own. -/
def literalCharacters : List Char := "0123456789.+-*/%()^πe".toList

/-- The actions of the tokens with names of their own. -/
def namedActions : List (List Char × Action) :=
  [("AC".toList, .clear), ("Escape".toList, .clear),
    ("del".toList, .deleteLast), ("Backspace".toList, .deleteLast),
    ("=".toList, .evaluate), ("Enter".toList, .evaluate),
    ("factorial".toList, .factorial), ("mode".toList, .toggleMode),
    ("M+".toList, .memoryAdd), ("MC".toList, .memoryClear), ("MR".toList, .memoryRecall),
    ("ans".toList, .append "ans".toList)]

/-- The token is a single character of expressions. -/
def isLiteralToken : List Char → Bool
  | [c] => literalCharacters.contains c
  | _ => false

/-- The action that a token stands for. -/
def Action.ofToken? (token : List Char) : Option Action :=
  match namedActions.lookup token with
  | some action => some action
  | none =>
    if (SurfaceFunction.ofName? token).isSome then some (.append (token ++ ['(']))
    else if isLiteralToken token then some (.append token)
    else none

inductive Operation where
  | act (action : Action)
  | press (token : List Char)
  | chooseMode (name : List Char)
  deriving DecidableEq, Repr

/-- Why an operation was refused. -/
inductive Refusal where
  | unknownToken (token : List Char)
  | unknownMode (name : List Char)
  | failed (failure : Failure)
  deriving DecidableEq, Repr

/-- The message about a mode that does not exist. -/
def unknownModeMessage (name : List Char) : List Char :=
  quoted name ++ " is not a valid AngleMode".toList

/-- What an operation answers. -/
inductive Reply where
  | done
  /-- The result of an evaluation or a factorial, if there was anything to evaluate. -/
  | result (result : Option Result)
  | refused (refusal : Refusal)

namespace Session

/-- The session and the reply after an action. A refused action changes nothing. -/
def perform (evaluator : Evaluator) (library : FactorialLibrary) (action : Action) (s : Session) :
    Session × Reply :=
  match action with
  | .append text => (s.append text, .done)
  | .evaluate =>
    match s.evaluate evaluator with
    | .ok (s, result) => (s, .result result)
    | .error failure => (s, .refused (.failed failure))
  | .factorial =>
    match s.factorial library with
    | .ok (s, result) => (s, .result result)
    | .error failure => (s, .refused (.failed failure))
  | .deleteLast => (s.deleteLast, .done)
  | .clear => (s.clear, .done)
  | .toggleMode => (s.toggleMode, .done)
  | .memoryAdd =>
    match s.memoryAdd evaluator with
    | .ok s => (s, .done)
    | .error failure => (s, .refused (.failed failure))
  | .memoryClear => (s.memoryClear, .done)
  | .memoryRecall => (s.memoryRecall, .done)

/-- The session and the reply after a token. Results are shown and not answered. -/
def press (evaluator : Evaluator) (library : FactorialLibrary) (token : List Char) (s : Session) :
    Session × Reply :=
  match Action.ofToken? token with
  | none => (s, .refused (.unknownToken token))
  | some action =>
    match s.perform evaluator library action with
    | (s, .refused refusal) => (s, .refused refusal)
    | (s, _) => (s, .done)

/-- The session and the reply after an operation. -/
def operate (evaluator : Evaluator) (library : FactorialLibrary) (operation : Operation)
    (s : Session) : Session × Reply :=
  match operation with
  | .act action => s.perform evaluator library action
  | .press token => s.press evaluator library token
  | .chooseMode name =>
    match AngleMode.ofName? name with
    | some mode => ({ s with mode := mode }, .done)
    | none => (s, .refused (.unknownMode name))

/-- The session after a sequence of operations. -/
def run (evaluator : Evaluator) (library : FactorialLibrary) (operations : List Operation)
    (s : Session) : Session :=
  operations.foldl (fun s operation => (s.operate evaluator library operation).1) s

end Session

end Calculator
