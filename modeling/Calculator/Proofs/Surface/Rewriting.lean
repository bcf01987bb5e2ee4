import Calculator.Proofs.Surface.Expansion

/-!
# The canonical form of a surface expression

Both passes over the text of an expression act on each of its parts by itself: a part is followed by
a parenthesis or by nothing, and it starts after a boundary. The second pass closes a call behind
its argument, because the argument closes every parenthesis that it opens and no other one.
-/
namespace Calculator

section Expansion

variable {mode : AngleMode} {opened : List Bool} {rest : List Char}

/-- Before a parenthesis it does not matter what stands there. -/
theorem expandOnward_separated (separated : Separated rest) (before : Option Char) :
    expandOnward mode opened 0 before rest = expandOnward mode opened 0 none rest := by
  cases separated with
  | ending => rfl
  | opening rest => rw [expandOnward_opening, expandOnward_opening]
  | closing rest => rw [expandOnward_closing, expandOnward_closing]

theorem expandOnward_quiet {w : List Char} {before : Option Char} (h : quiet before w = true)
    (parentheses : ∀ c ∈ w, c ≠ '(' ∧ c ≠ ')') (separated : Separated rest) :
    expandOnward mode opened 0 before (w ++ rest) = w ++ expandOnward mode opened 0 none rest := by
  rw [expandOnward_plain (plain_of_quiet h parentheses), expandOnward_separated separated]

/-- Text without parentheses and without the first letters of calls stays. -/
theorem expandOnward_notMem {w : List Char} (h : ∀ c ∈ w, c ∉ '(' :: ')' :: callStarts)
    (before : Option Char) (separated : Separated rest) :
    expandOnward mode opened 0 before (w ++ rest) = w ++ expandOnward mode opened 0 none rest := by
  simp only [List.mem_cons, not_or] at h
  exact expandOnward_quiet (quiet_of_notMem (fun c member => (h c member).2.2) before)
    (fun c member => ⟨(h c member).1, (h c member).2.1⟩) separated

/-- A text in parentheses is expanded by itself. -/
theorem expandOnward_parenthesized {w w' : List Char}
    (h : ∀ rest, Separated rest → expandOnward mode (false :: opened) 0 (some '(') (w ++ rest) =
      w' ++ expandOnward mode (false :: opened) 0 none rest) (before : Option Char) :
    expandOnward mode opened 0 before (parenthesized w ++ rest) =
      parenthesized w' ++ expandOnward mode opened 0 (some ')') rest := by
  simp only [parenthesized, List.cons_append, List.append_assoc, List.nil_append]
  rw [expandOnward_opening, h _ (.closing rest), expandOnward_closing]
  simp only [List.headD_cons, AngleMode.closing_false, List.tail_cons, List.nil_append]

theorem expandOnward_enclosedLiteral (x : Binary64) (before : Option Char)
    (separated : Separated rest) :
    expandOnward mode opened 0 before (enclosedLiteral x ++ rest) =
      enclosedLiteral x ++ expandOnward mode opened 0 none rest := by
  have inside : expandOnward mode opened 0 before
      (parenthesized (NumberFormat.literal.text x) ++ rest) = _ :=
    expandOnward_parenthesized
      (fun _ separated => expandOnward_quiet (literal_plain x).2 (literal_plain x).1 separated) before
  rw [expandOnward_separated separated] at inside
  exact inside

end Expansion

namespace Surface

/-- The canonical text of an expression. -/
def expanded (mode : AngleMode) (answer : Binary64) : Surface → List Char
  | .numeral n => n.text
  | .pi => enclosedLiteral .pi
  | .euler => enclosedLiteral .euler
  | .answer => enclosedLiteral answer
  | .signed sign t => sign.char :: parenthesized (t.expanded mode answer)
  | .binary o left right =>
    parenthesized (left.expanded mode answer) ++ o.canonical.text ++
      parenthesized (right.expanded mode answer)
  | .call f t => f.written mode (t.expanded mode answer)

theorem expandOnward_replaced (mode : AngleMode) (answer : Binary64) (t : Surface)
    {opened : List Bool} {before : Option Char} (boundary : isBoundary before = true)
    {rest : List Char} (separated : Separated rest) :
    expandOnward mode opened 0 before (t.replaced answer ++ rest) =
      t.expanded mode answer ++ expandOnward mode opened 0 none rest := by
  have inside : isBoundary (some '(') = true := by decide
  induction t generalizing opened before rest with
  | numeral n => exact expandOnward_notMem n.text_plain before separated
  | pi => exact expandOnward_enclosedLiteral _ before separated
  | euler => exact expandOnward_enclosedLiteral _ before separated
  | answer => exact expandOnward_enclosedLiteral _ before separated
  | signed sign t ih =>
    have plain : ∀ c ∈ [sign.char], c ∉ '(' :: ')' :: callStarts := by
      cases sign <;> exact forall_mem_of_all (by decide)
    have symbol : ∀ rest, expandOnward mode opened 0 before ([sign.char] ++ _) = _ := fun rest =>
      expandOnward_notMem plain before (separated_parenthesized (t.replaced answer) rest)
    rw [replaced, List.cons_append, ← List.singleton_append, symbol,
      expandOnward_parenthesized fun rest => ih inside, expandOnward_separated separated, expanded]
    rfl
  | binary o left right ih₁ ih₂ =>
    have plain : ∀ c ∈ o.canonical.text, c ∉ '(' :: ')' :: callStarts := by
      cases o <;> exact forall_mem_of_all (by decide)
    have operator : ∀ rest, expandOnward mode opened 0 (some ')') _ = _ := fun rest =>
      expandOnward_notMem plain (some ')') (separated_parenthesized (right.replaced answer) rest)
    rw [replaced, List.append_assoc, List.append_assoc,
      expandOnward_parenthesized fun rest => ih₁ inside, operator,
      expandOnward_parenthesized fun rest => ih₂ inside, expandOnward_separated separated, expanded]
    simp only [List.append_assoc]
  | call f t ih =>
    simp only [replaced, parenthesized, List.append_assoc, List.cons_append, List.nil_append]
    rw [expandOnward_call f boundary, ih inside (.closing rest), expandOnward_closing, expanded,
      SurfaceFunction.written, f.closing_eq_isAngular, List.headD_cons, List.tail_cons,
      expandOnward_separated separated]
    simp only [List.append_assoc, List.cons_append]

/-- The canonical form of the text of an expression. -/
theorem canonical_text (mode : AngleMode) (answer : Binary64) (t : Surface) :
    canonical mode answer t.text = t.expanded mode answer := by
  have first : substitute answer 0 none (t.text ++ []) = _ := substitute_text answer t rfl .ending
  have second : expandOnward mode [] 0 none (t.replaced answer ++ []) = _ :=
    expandOnward_replaced mode answer t rfl .ending
  rw [List.append_nil, substitute, List.append_nil] at first
  rw [List.append_nil, expandOnward, List.append_nil] at second
  rw [canonical, trimBlanks_eq_self t.isBlank_text, first, expandCalls_eq_expandOnward, second]

end Surface

end Calculator
