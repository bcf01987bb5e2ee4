import Calculator.Proofs.Surface.Spelled

/-!
# Formulas

What the user writes, as it is written: tokens with blanks between them, and a grammar of its own
over them, in which a constant and the opening of a call are single tokens. A formula records how a
text is put together. Its depth counts parentheses, calls, signs and exponents on one path.
-/
namespace Calculator

/-! ## Tokens -/

/-- A token of a text that the user writes. A call is the name of a function with the parenthesis
directly behind it. -/
inductive SurfaceLexeme where
  | numeral (n : Numeral)
  | constant (c : SurfaceConstant)
  | name (w : List Char)
  | call (f : SurfaceFunction)
  | operator (o : Operator)

namespace SurfaceLexeme

/-- The text of a token. The power sign has two forms. -/
inductive Written : SurfaceLexeme → List Char → Prop
  | numeral (n : Numeral) : Written (.numeral n) n.text
  | constant (c : SurfaceConstant) : Written (.constant c) c.name
  | name {w : List Char} (bare : Bare w) : Written (.name w) w
  | call (f : SurfaceFunction) : Written (.call f) (f.name ++ ['('])
  | operator (o : Operator) : Written (.operator o) o.text
  | power : Written (.operator .power) ['^']

/-- The token does not go on in the text behind it, nor become another one with it. -/
def Fits (text : List Char) : SurfaceLexeme → Prop
  | .numeral _ => Numeral.Stops text
  | .constant c => c.isWord = true → isBoundary text.head? = true
  | .name w => StopsName text ∧
      ((∀ f : SurfaceFunction, f.name ≠ w) ∨ text.head? ≠ some '(' ∧ text.head? ≠ some 'π')
  | .call _ => True
  | .operator o => o = .times → text.head? ≠ some '*' ∧ text.head? ≠ some '^'

theorem fits_nil : ∀ l : SurfaceLexeme, l.Fits []
  | .numeral _ => Numeral.stops_nil
  | .constant _ => fun _ => rfl
  | .name _ => ⟨fun _ head => (by cases head), .inr ⟨by simp, by simp⟩⟩
  | .call _ => trivial
  | .operator _ => fun _ => ⟨by simp, by simp⟩

/-- Only the next character matters. -/
theorem Fits.of_head? {l : SurfaceLexeme} {text text' : List Char} (h : l.Fits text)
    (same : text'.head? = text.head?) : l.Fits text' := by
  cases l with
  | numeral n =>
    obtain ⟨noDigit, noPoint, noPower⟩ := h
    rw [← same] at noDigit noPoint noPower
    exact ⟨noDigit, noPoint, noPower⟩
  | name w =>
    obtain ⟨stops, noCall⟩ := h
    rw [← same] at noCall
    exact ⟨fun c head => stops c (same ▸ head), noCall⟩
  | constant c => simpa only [Fits, same] using h
  | call f => trivial
  | operator o => simpa only [Fits, same] using h

/-- A token is something visible. -/
theorem Written.visible {l : SurfaceLexeme} {u : List Char} (h : l.Written u) :
    u ≠ [] ∧ ∀ c ∈ u, isBlank c = false := by
  cases h with
  | numeral n =>
    refine ⟨fun none => ?_,
      Numeral.forall_mem_text Digit.isBlank_char (forall_mem_of_all (by decide)) n⟩
    have last := n.getLast?_text
    rw [none] at last
    simp at last
  | constant c => cases c <;> exact ⟨List.cons_ne_nil _ _, forall_mem_of_all (by decide)⟩
  | name bare =>
    refine ⟨?_, fun c member => ?_⟩
    · obtain ⟨c, rest, rfl, -⟩ := bare.silent
      exact List.cons_ne_nil _ _
    · have char := bare.isName.all c member
      cases blank : isBlank c with
      | false => rfl
      | true =>
        rw [isNameChar_of_isBlank blank] at char
        cases char
  | call f => cases f <;> exact ⟨List.cons_ne_nil _ _, forall_mem_of_all (by decide)⟩
  | operator o => cases o <;> exact ⟨List.cons_ne_nil _ _, forall_mem_of_all (by decide)⟩
  | power => exact ⟨List.cons_ne_nil _ _, forall_mem_of_all (by decide)⟩

end SurfaceLexeme

/-- The text shows these tokens, with blanks anywhere around them. -/
inductive Shown : List SurfaceLexeme → List Char → Prop
  | nil : Shown [] []
  | blank {c : Char} {text : List Char} {ls : List SurfaceLexeme} (blank : isBlank c = true)
      (h : Shown ls text) : Shown ls (c :: text)
  | lexeme {l : SurfaceLexeme} {u text : List Char} {ls : List SurfaceLexeme}
      (written : l.Written u) (fits : l.Fits text) (h : Shown ls text) : Shown (l :: ls) (u ++ text)

namespace Shown

variable {ls : List SurfaceLexeme} {text : List Char}

theorem dropWhile_isBlank (h : Shown ls text) : Shown ls (text.dropWhile isBlank) := by
  induction h with
  | nil => exact .nil
  | blank blank h ih =>
    rw [List.dropWhile_cons_of_pos blank]
    exact ih
  | @lexeme l u text ls written fits h ih =>
    obtain ⟨nonempty, visible⟩ := written.visible
    obtain ⟨c, rest, rfl⟩ := List.exists_cons_of_ne_nil nonempty
    have first := visible c List.mem_cons_self
    rw [List.cons_append, List.dropWhile_cons_of_neg (by simp [first])]
    exact .lexeme written fits h

theorem dropBlankEnd (h : Shown ls text) : Shown ls (dropBlankEnd text) := by
  induction h with
  | nil => exact .nil
  | @blank c text ls blank h ih =>
    rw [Calculator.dropBlankEnd]
    split
    · rename_i same
      simp only [Bool.and_eq_true, List.isEmpty_iff] at same
      rwa [same.1] at ih
    · exact .blank blank ih
  | @lexeme l u text ls written fits h ih =>
    have visible : ∀ c, u.getLast? = some c → isBlank c = false := fun c last =>
      written.visible.2 c (List.mem_of_getLast? last)
    rw [dropBlankEnd_append visible]
    refine .lexeme written ?_ ih
    obtain ⟨blanks, same, -⟩ := exists_append_dropBlankEnd text
    cases kept : Calculator.dropBlankEnd text with
    | nil => exact l.fits_nil
    | cons d rest =>
      refine fits.of_head? ?_
      rw [same, kept]
      rfl

/-- Blanks at the ends do not matter. -/
theorem trimBlanks (h : Shown ls text) : Shown ls (trimBlanks text) :=
  h.dropWhile_isBlank.dropBlankEnd

end Shown

/-! ## Canonical lexemes -/

/-- The lexemes of the canonical form of tokens, behind a text of which these parentheses are
open. -/
def canonicalLexemes (mode : AngleMode) (answer : Binary64) :
    List Bool → List SurfaceLexeme → List Lexeme
  | _, [] => []
  | opened, .numeral n :: rest => .number n :: canonicalLexemes mode answer opened rest
  | opened, .constant c :: rest => c.lexemes answer ++ canonicalLexemes mode answer opened rest
  | opened, .name w :: rest => .name w :: canonicalLexemes mode answer opened rest
  | opened, .call f :: rest =>
    f.openingLexemes mode ++ canonicalLexemes mode answer (f.isAngular :: opened) rest
  | opened, .operator .opening :: rest =>
    .operator .opening :: canonicalLexemes mode answer (false :: opened) rest
  | opened, .operator .closing :: rest =>
    .operator .closing :: (mode.closingLexemes (opened.headD false) ++
      canonicalLexemes mode answer opened.tail rest)
  | opened, .operator o :: rest => .operator o :: canonicalLexemes mode answer opened rest

/-- The canonical form of a text is read as the canonical lexemes of its tokens. -/
theorem Shown.canonicallySpells {mode : AngleMode} {answer : Binary64} {opened : List Bool}
    {ls : List SurfaceLexeme} {text : List Char} (h : Shown ls text) :
    CanonicallySpells mode answer opened text (canonicalLexemes mode answer opened ls) := by
  induction h generalizing opened with
  | nil => exact .nil
  | blank blank h ih => exact .blank blank ih
  | @lexeme l u text ls written fits h ih =>
    cases written with
    | numeral n => exact .number n fits ih
    | constant c => exact .constant c fits ih
    | name bare => exact .name bare fits.1 fits.2 ih
    | call f =>
      rw [List.append_assoc]
      exact .call f ih
    | power => exact .operator .power (fun other => by cases other) ih
    | operator o =>
      cases o with
      | plus => exact .operator .plus (fun other => by cases other) ih
      | minus => exact .operator .minus (fun other => by cases other) ih
      | times => exact .operator .times (fun _ => fits rfl) ih
      | divide => exact .operator .divide (fun other => by cases other) ih
      | modulo => exact .operator .modulo (fun other => by cases other) ih
      | power => exact .doubleTimes ih
      | opening => exact .opening ih
      | closing => exact .closing ih
      | comma => exact .comma ih

/-! ## The grammar -/

/-- How a text is put together. The arguments of a call are a list, and `further` is one of more
than one. -/
inductive Formula where
  | numeral (n : Numeral)
  | constant (c : SurfaceConstant)
  | name (w : List Char)
  | group (inner : Formula)
  | call (f : SurfaceFunction) (arguments : Formula)
  | apply (name : List Char) (arguments : Formula)
  | further (first arguments : Formula)
  | signed (sign : Sign) (operand : Formula)
  | power (base exponent : Formula)
  | product (link : Link) (left right : Formula)
  | sum (sign : Sign) (left right : Formula)

/-- Parentheses, calls, signs and exponents on the deepest path. -/
def Formula.depth : Formula → Nat
  | .numeral _ | .constant _ | .name _ => 0
  | .group inner => inner.depth + 1
  | .call _ arguments | .apply _ arguments => arguments.depth + 1
  | .further first arguments => max first.depth arguments.depth
  | .signed _ operand => operand.depth + 1
  | .power base exponent => max base.depth (exponent.depth + 1)
  | .product _ left right | .sum _ left right => max left.depth right.depth

/-- A place between tokens: those behind it, and whether an operand has just been closed, by a
parenthesis or as a constant is. -/
structure Place where
  closed : Bool
  rest : List SurfaceLexeme

/-- A factor may start here without an operator. -/
def Place.startsFactor (p : Place) : Bool :=
  match p.rest with
  | .constant _ :: _ | .name _ :: _ | .call _ :: _ | .operator .opening :: _ => true
  | .numeral _ :: _ => p.closed
  | _ => false

/-- A name would be called here. -/
def startsArgument : List SurfaceLexeme → Bool
  | .constant _ :: _ | .operator .opening :: _ => true
  | _ => false

/-- What a part of a formula is. Factors and terms go on from what stands to their left. -/
inductive Phrase where
  | primary | unary | power | term | expression | arguments
  | factors (left : Formula)
  | terms (left : Formula)

/-- A formula is written as a phrase between two places. -/
inductive Parses : Phrase → Place → Formula → Place → Prop
  | numeral {closed : Bool} {n : Numeral} {rest : List SurfaceLexeme} :
      Parses .primary ⟨closed, .numeral n :: rest⟩ (.numeral n) ⟨false, rest⟩
  | constant {closed : Bool} {c : SurfaceConstant} {rest : List SurfaceLexeme} :
      Parses .primary ⟨closed, .constant c :: rest⟩ (.constant c) ⟨true, rest⟩
  | name {closed : Bool} {w : List Char} {rest : List SurfaceLexeme}
      (alone : startsArgument rest = false) :
      Parses .primary ⟨closed, .name w :: rest⟩ (.name w) ⟨false, rest⟩
  | group {closed closed' : Bool} {inner : Formula} {rest rest' : List SurfaceLexeme}
      (expression : Parses .expression ⟨false, rest⟩ inner ⟨closed', .operator .closing :: rest'⟩) :
      Parses .primary ⟨closed, .operator .opening :: rest⟩ (.group inner) ⟨true, rest'⟩
  | call {closed closed' : Bool} {f : SurfaceFunction} {t : Formula}
      {rest rest' : List SurfaceLexeme}
      (arguments : Parses .arguments ⟨false, rest⟩ t ⟨closed', .operator .closing :: rest'⟩) :
      Parses .primary ⟨closed, .call f :: rest⟩ (.call f t) ⟨true, rest'⟩
  | apply {closed closed' : Bool} {w : List Char} {t : Formula} {rest rest' : List SurfaceLexeme}
      (arguments : Parses .arguments ⟨false, rest⟩ t ⟨closed', .operator .closing :: rest'⟩) :
      Parses .primary ⟨closed, .name w :: .operator .opening :: rest⟩ (.apply w t) ⟨true, rest'⟩
  | lastArgument {p p' : Place} {t : Formula} (expression : Parses .expression p t p') :
      Parses .arguments p t p'
  | nextArgument {p p' : Place} {closed : Bool} {first t : Formula} {rest : List SurfaceLexeme}
      (expression : Parses .expression p first ⟨closed, .operator .comma :: rest⟩)
      (arguments : Parses .arguments ⟨false, rest⟩ t p') :
      Parses .arguments p (.further first t) p'
  | signed {closed : Bool} {sign : Sign} {t : Formula} {rest : List SurfaceLexeme} {p' : Place}
      (unary : Parses .unary ⟨false, rest⟩ t p') :
      Parses .unary ⟨closed, .operator sign.symbol :: rest⟩ (.signed sign t) p'
  | unsigned {p p' : Place} {t : Formula} (primary : Parses .primary p t p') :
      Parses .unary p t p'
  | raised {p p' : Place} {closed : Bool} {base exponent : Formula} {rest : List SurfaceLexeme}
      (unary : Parses .unary p base ⟨closed, .operator .power :: rest⟩)
      (power : Parses .power ⟨false, rest⟩ exponent p') :
      Parses .power p (.power base exponent) p'
  | base {p p' : Place} {t : Formula} (unary : Parses .unary p t p') : Parses .power p t p'
  | term {p p₁ p' : Place} {first t : Formula} (power : Parses .power p first p₁)
      (factors : Parses (.factors first) p₁ t p') : Parses .term p t p'
  | factor {closed : Bool} {link : Link} {operator : Operator} {left right t : Formula}
      {rest : List SurfaceLexeme} {p₁ p' : Place} (written : link.symbol? = some operator)
      (power : Parses .power ⟨false, rest⟩ right p₁)
      (factors : Parses (.factors (.product link left right)) p₁ t p') :
      Parses (.factors left) ⟨closed, .operator operator :: rest⟩ t p'
  | implicitFactor {p p₁ p' : Place} {left right t : Formula} (start : p.startsFactor = true)
      (power : Parses .power p right p₁)
      (factors : Parses (.factors (.product .implicit left right)) p₁ t p') :
      Parses (.factors left) p t p'
  | noFactor {p : Place} {left : Formula} : Parses (.factors left) p left p
  | expression {p p₁ p' : Place} {first t : Formula} (term : Parses .term p first p₁)
      (terms : Parses (.terms first) p₁ t p') : Parses .expression p t p'
  | furtherTerm {closed : Bool} {sign : Sign} {left right t : Formula} {rest : List SurfaceLexeme}
      {p₁ p' : Place} (term : Parses .term ⟨false, rest⟩ right p₁)
      (terms : Parses (.terms (.sum sign left right)) p₁ t p') :
      Parses (.terms left) ⟨closed, .operator sign.symbol :: rest⟩ t p'
  | noTerm {p : Place} {left : Formula} : Parses (.terms left) p left p

theorem Parses.expression_of_primary {p p' : Place} {t : Formula} (h : Parses .primary p t p') :
    Parses .expression p t p' :=
  .expression (.term (.base (.unsigned h)) .noFactor) .noTerm

end Calculator
