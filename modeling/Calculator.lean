import Calculator.Elementary.GammaSeries
import Calculator.Keypad.Layout
import Calculator.Main
import Calculator.Proofs.Grammar.Steps
import Calculator.Proofs.Grammar.Unambiguous
import Calculator.Window
import Calculator.Proofs.Grammar.Reading
import Calculator.Proofs.Grammar.Sentences
import Calculator.Proofs.Number.Digits
import Calculator.Proofs.Number.Scale
import Calculator.Proofs.Number.Scan
import Calculator.Proofs.Number.Written
import Calculator.Proofs.Number.Nearest
import Calculator.Proofs.Number.Decade
import Calculator.Proofs.Grammar.Writing
import Calculator.Proofs.Grammar.SideBySide
import Calculator.Proofs.Surface.Expression
import Calculator.Proofs.Surface.Pieces
import Calculator.Proofs.Surface.Rewriting
import Calculator.Proofs.Surface.Meaning
import Calculator.Proofs.Checked.Arithmetic
import Calculator.Proofs.Checked.Reading
import Calculator.Proofs.Checked.Places
import Calculator.Proofs.Checked.Safety
import Calculator.Proofs.Token.Prefix
import Calculator.Proofs.Token.Front
import Calculator.Proofs.Degrees.Registry
import Calculator.Proofs.Degrees.Words
import Calculator.Proofs.Degrees.Lexemes
import Calculator.Proofs.Degrees.Canonical
import Calculator.Proofs.Degrees.Simulation
import Calculator.Proofs.Degrees.Equivalence
import Calculator.Proofs.Grouping.Regrouped
import Calculator.Proofs.Grouping.Blocks
import Calculator.Proofs.Grouping.Displayed
import Calculator.Proofs.Grouping.Spacing
import Calculator.Proofs.Session.Coherence
import Calculator.Proofs.Session.Exceptions
import Calculator.Proofs.Session.Assignments
import Calculator.Proofs.Number.Redisplay
import Calculator.Proofs.Grouping.LastAnswer
import Calculator.Proofs.Number.Trimmed
import Calculator.Proofs.Number.Length
import Calculator.Proofs.Session.Redisplayed
import Calculator.Proofs.Number.Whole
import Calculator.Proofs.Session.Registers
import Calculator.Proofs.Checked.Session
import Calculator.Proofs.Window.Mirror
import Calculator.Proofs.Session.Recalled
import Calculator.Proofs.Surface.Spelled
import Calculator.Proofs.Session.Operands
import Calculator.Proofs.Surface.Formula
import Calculator.Proofs.Surface.Nesting
import Calculator.Proofs.Grammar.Uncalled
import Calculator.Proofs.Grouping.Unwritten
import Calculator.Proofs.Number.FewDigits
import Calculator.Proofs.Session.Repeated
import Calculator.Proofs.Grammar.Inside
import Calculator.Proofs.Grammar.Balance
import Calculator.Proofs.Surface.Arguments
import Calculator.Proofs.Surface.Names
import Calculator.Proofs.Surface.Occurrences
import Calculator.Proofs.Session.FunctionKeys
import Calculator.Proofs.Token.Longest
import Calculator.Proofs.Token.Partition
import Calculator.Proofs.Surface.Parentheses
import Calculator.Proofs.Session.LeadingNumber
import Calculator.Proofs.Grammar.Activations
import Calculator.Proofs.Grammar.Height
import Calculator.Proofs.Grammar.Answers
import Calculator.Proofs.Checked.Powers
import Calculator.Proofs.Surface.Matching
import Calculator.Proofs.Keypad.Tiling
