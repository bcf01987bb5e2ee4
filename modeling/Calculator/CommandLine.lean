import Calculator.SelfCheck

/-!
# The command line

With `--inspect` and an expression the canonical form and the value of the expression are printed,
in degrees unless `--mode` chooses another angle mode. Without it the built-in checks are run.
-/
namespace Calculator

/-- How a run that did not succeed ends. -/
inductive Exit where
  | message (text : List Char)
  | status (code : Nat)
  deriving DecidableEq, Repr

/-- The lines a run prints, and how it ends if it does not succeed. -/
structure Run where
  lines : List (List Char)
  exit : Option Exit
  deriving DecidableEq, Repr

namespace CommandLine

/-- What follows the first occurrence of an option, if the option occurs. -/
def afterOption? (option : List Char) : List (List Char) → Option (List (List Char))
  | [] => none
  | argument :: rest => if argument = option then some rest else afterOption? option rest

/-- The canonical form of an expression, or the kind of its error. -/
def canonicalText (expression : List Char) (mode : AngleMode) : List Char :=
  match canonicalize expression mode .zero with
  | .ok text => text
  | .error fault => '(' :: fault.kind.name ++ [')']

/-- The lines on an expression. -/
def inspection (expression : List Char) (mode : AngleMode) : List (List Char) :=
  ["Expression inspection".toList,
    "expr:      ".toList ++ expression,
    "mode:      ".toList ++ mode.label,
    "canonical: ".toList ++ canonicalText expression mode,
    "result:    ".toList ++ valueText expression mode .zero]

/-- The angle mode of the arguments, if it is a valid one. -/
def mode? (arguments : List (List Char)) : Option AngleMode :=
  match afterOption? "--mode".toList arguments with
  | none => some .degrees
  | some [] => none
  | some (name :: _) => AngleMode.ofName? name

/-- The run with the given arguments. -/
def run (arguments : List (List Char)) : Run :=
  match afterOption? "--inspect".toList arguments with
  | none =>
    let failed := SelfCheck.failures SelfCheck.checks SelfCheck.comparisons
    ⟨SelfCheck.report SelfCheck.checks SelfCheck.comparisons,
      if failed = [] then none else some (.status 1)⟩
  | some [] => ⟨[], some (.message "Missing expression after --inspect".toList)⟩
  | some (expression :: _) =>
    match mode? arguments with
    | none => ⟨[], some (.message "Invalid value for --mode (use deg or rad)".toList)⟩
    | some mode => ⟨inspection expression mode, none⟩

/-- The printed lines as one text. -/
def output (r : Run) : List Char :=
  r.lines.flatMap (· ++ ['\n'])

end CommandLine

end Calculator
