import Calculator.Proofs.Grammar.Writing
import Calculator.Proofs.Token.Prefix

/-!
# Balanced parentheses

A sentence closes every parenthesis that it opens, and no other one: passing a phrase leaves as many
parentheses open as there were before it. A text that is read as a sentence is therefore balanced.
-/
namespace Calculator

/-- The number of parentheses open behind a text with `depth` open ones in front of it; none if one
is closed where none is open. -/
def depthBehind? (depth : Nat) : List Char → Option Nat
  | [] => some depth
  | c :: rest =>
    if c = '(' then depthBehind? (depth + 1) rest
    else if c = ')' then
      if depth = 0 then none else depthBehind? (depth - 1) rest
    else depthBehind? depth rest

/-- Every parenthesis is closed, and none that is not open. -/
def Balanced (text : List Char) : Prop :=
  depthBehind? 0 text = some 0

instance (text : List Char) : Decidable (Balanced text) :=
  inferInstanceAs (Decidable (depthBehind? 0 text = some 0))

example : Balanced "2(3)sin((1))".toList ∧ ¬ Balanced "(1))(2".toList := by decide

/-- What is open behind a text is open in front of what follows it. -/
theorem depthBehind?_append (depth : Nat) (u w : List Char) :
    depthBehind? depth (u ++ w) = (depthBehind? depth u).bind fun inner => depthBehind? inner w := by
  induction u generalizing depth with
  | nil => rfl
  | cons c u ih =>
    simp only [List.cons_append, depthBehind?, ih]
    split
    · rfl
    · split
      · split <;> rfl
      · rfl

/-- Without parentheses the depth stays. -/
theorem depthBehind?_plain {w : List Char} (h : ∀ c ∈ w, c ≠ '(' ∧ c ≠ ')') (depth : Nat) :
    depthBehind? depth w = some depth := by
  induction w with
  | nil => rfl
  | cons c w ih =>
    obtain ⟨opening, closing⟩ := h c List.mem_cons_self
    rw [depthBehind?, if_neg opening, if_neg closing]
    exact ih fun c member => h c (List.mem_cons_of_mem _ member)

/-! ## Sentences -/

/-- The parentheses of a lexeme. -/
def Lexeme.parentheses : Lexeme → List Char
  | .operator .opening => ['(']
  | .operator .closing => [')']
  | _ => []

namespace Cursor

/-- The number of parentheses open at the end of the tokens, with `depth` open ones here. -/
def depthAhead? (depth : Nat) (c : Cursor) : Option Nat :=
  depthBehind? depth (c.rest.lexemes.flatMap Lexeme.parentheses)

variable {c : Cursor}

theorem depthAhead?_advance {lexeme : Lexeme} (next : c.next? = some lexeme) (depth : Nat) :
    c.depthAhead? depth = depthBehind? depth
      (lexeme.parentheses ++ c.advance.rest.lexemes.flatMap Lexeme.parentheses) := by
  obtain ⟨position, found⟩ := rest_of_next? next
  rw [depthAhead?, found]
  rfl

theorem depthAhead?_other {lexeme : Lexeme} (next : c.next? = some lexeme)
    (plain : lexeme.parentheses = []) (depth : Nat) :
    c.depthAhead? depth = c.advance.depthAhead? depth := by
  rw [depthAhead?_advance next, plain]
  rfl

theorem depthAhead?_operator {operator : Operator} (next : c.operator? = some operator)
    (plain : Lexeme.parentheses (.operator operator) = []) (depth : Nat) :
    c.depthAhead? depth = c.advance.depthAhead? depth :=
  depthAhead?_other (next?_of_operator? next) plain depth

theorem depthAhead?_opening (next : c.operator? = some .opening) (depth : Nat) :
    c.depthAhead? depth = c.advance.depthAhead? (depth + 1) :=
  depthAhead?_advance (next?_of_operator? next) depth

theorem depthAhead?_closing (next : c.operator? = some .closing) (depth : Nat) :
    c.depthAhead? (depth + 1) = c.advance.depthAhead? depth :=
  depthAhead?_advance (next?_of_operator? next) (depth + 1)

theorem depthAhead?_atEnd (h : c.AtEnd) (depth : Nat) : c.depthAhead? depth = some depth := by
  obtain ⟨position, finished⟩ := rest_of_next?_none h
  rw [depthAhead?, finished]
  rfl

end Cursor

/-- The parentheses that are open in front of a part of this category and closed by it: arguments
end with that of their call. -/
def Category.opened : Category → Nat
  | .arguments _ | .moreArguments _ _ => 1
  | _ => 0

theorem Sign.parentheses_symbol (sign : Sign) : Lexeme.parentheses (.operator sign.symbol) = [] := by
  cases sign <;> rfl

theorem Link.parentheses_symbol {link : Link} {operator : Operator}
    (written : link.symbol? = some operator) : Lexeme.parentheses (.operator operator) = [] := by
  cases link <;> cases written <;> rfl

/-- Passing a part of a sentence leaves the parentheses open that were open in front of it. -/
theorem Derives.depthAhead?_eq {category : Category} {c c' : Cursor} {t : Syntax}
    (h : Derives category c t c') (depth : Nat) :
    c.depthAhead? (depth + category.opened) = c'.depthAhead? depth := by
  induction h generalizing depth with
  | number next => exact Cursor.depthAhead?_other next rfl depth
  | constant next alone => exact Cursor.depthAhead?_other next rfl depth
  | group opening expression closing ih =>
    rw [← Cursor.depthAhead?_closing closing, ← ih]
    exact Cursor.depthAhead?_opening opening depth
  | call next opening arguments ih =>
    rw [← ih, Category.opened, ← Cursor.depthAhead?_opening opening]
    exact Cursor.depthAhead?_other next rfl depth
  | noArguments closing => exact Cursor.depthAhead?_closing closing depth
  | firstArgument expression more ih₁ ih₂ =>
    rw [← ih₂]
    exact ih₁ (depth + 1)
  | nextArgument comma expression more ih₁ ih₂ =>
    rw [← ih₂, Cursor.depthAhead?_operator comma rfl]
    exact ih₁ (depth + 1)
  | lastArgument closing => exact Cursor.depthAhead?_closing closing depth
  | @signed _ _ sign _ symbol unary ih =>
    rw [← ih]
    exact Cursor.depthAhead?_operator symbol sign.parentheses_symbol depth
  | unsigned primary ih => exact ih depth
  | raised unary symbol power ih₁ ih₂ =>
    rw [← ih₂]
    exact (ih₁ depth).trans (Cursor.depthAhead?_operator symbol rfl depth)
  | base unary ih => exact ih depth
  | term power factors ih₁ ih₂ =>
    rw [← ih₂]
    exact ih₁ depth
  | factor written symbol power factors ih₁ ih₂ =>
    rw [← ih₂, Cursor.depthAhead?_operator symbol (Link.parentheses_symbol written)]
    exact ih₁ depth
  | implicitFactor start power factors ih₁ ih₂ =>
    rw [← ih₂]
    exact ih₁ depth
  | noFactor => rfl
  | expression term terms ih₁ ih₂ =>
    rw [← ih₂]
    exact ih₁ depth
  | @furtherTerm _ _ _ sign _ _ _ symbol term terms ih₁ ih₂ =>
    rw [← ih₂, Cursor.depthAhead?_operator symbol sign.parentheses_symbol]
    exact ih₁ depth
  | noTerm => rfl

/-! ## Texts -/

/-- Of a lexeme in a text only the parentheses count. -/
theorem Lexeme.depthBehind?_text {lexeme : Lexeme} {text : List Char}
    (found : scan? text = some lexeme) (depth : Nat) :
    depthBehind? depth lexeme.text = depthBehind? depth lexeme.parentheses := by
  cases lexeme with
  | number n =>
    have plain := n.forall_mem_text (P := fun c => c ≠ '(' ∧ c ≠ ')')
      (fun d => ⟨Digit.char_ne (by decide) d, Digit.char_ne (by decide) d⟩)
      (forall_mem_of_all (by decide))
    exact depthBehind?_plain plain depth
  | name word =>
    refine depthBehind?_plain (fun c member => ?_) depth
    have letter := (name_of_scan? found).1.all c member
    constructor <;> rintro rfl <;> cases letter
  | operator o => cases o <;> rfl

theorem Leads.depthBehind?_eq {text rest : List Char} {ls : List Lexeme} (h : Leads text ls rest)
    (depth : Nat) :
    depthBehind? depth text = depthBehind? depth (ls.flatMap Lexeme.parentheses ++ rest) := by
  induction h generalizing depth with
  | here => rfl
  | @blank c text _ _ blank further ih =>
    have plain : ∀ d ∈ [c], d ≠ '(' ∧ d ≠ ')' := by
      intro d member
      rw [List.mem_singleton.1 member]
      constructor <;> rintro rfl <;> cases blank
    rw [← List.singleton_append, depthBehind?_append, depthBehind?_plain plain]
    exact ih depth
  | @lexeme lexeme text rest ls found further ih =>
    rw [List.flatMap_cons, List.append_assoc, depthBehind?_append, depthBehind?_append,
      Lexeme.depthBehind?_text found]
    exact congrArg _ (funext ih)

/-- A text that is read as a sentence is balanced. -/
theorem Tokens.Sentence.balanced {tokens : Tokens} {t : Syntax} (h : tokens.Sentence t)
    {text : List Char} (read : Leads text tokens.lexemes []) : Balanced text := by
  obtain ⟨c, derived, atEnd⟩ := h
  have depth := derived.depthAhead?_eq 0
  rw [Cursor.depthAhead?_atEnd atEnd] at depth
  rw [Balanced, read.depthBehind?_eq, List.append_nil]
  exact depth

end Calculator
