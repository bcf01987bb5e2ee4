import Calculator.Proofs.Surface.Arguments
import Calculator.Proofs.Surface.Occurrences

/-!
# Parentheses of the canonical form

Constants bring a pair of parentheses with them. The opening of a call of an angle opens one more
parenthesis, and it is closed behind the call if the call is closed; otherwise both stay open. So
the canonical form of an expression is balanced exactly if the expression is, and an expression that
is not has no value.
-/
namespace Calculator

/-! ## Open parentheses behind a text -/

/-- More parentheses in front of a text that closes none of them stay open behind it. -/
theorem depthBehind?_add {u : List Char} {depth inner : Nat} (h : depthBehind? depth u = some inner)
    (more : Nat) : depthBehind? (depth + more) u = some (inner + more) := by
  induction u generalizing depth with
  | nil =>
    cases h
    rfl
  | cons c u ih =>
    rw [depthBehind?] at h ⊢
    split at h
    · rename_i opening
      rw [if_pos opening, Nat.add_right_comm]
      exact ih h
    · rename_i opening
      rw [if_neg opening]
      split at h
      · rename_i closing
        obtain ⟨nonzero, h⟩ := Option.ite_none_left_eq_some.1 h
        rw [if_pos closing, if_neg (by omega), show depth + more - 1 = depth - 1 + more by omega]
        exact ih h
      · rename_i closing
        rw [if_neg closing]
        exact ih h

/-- A balanced text leaves open what is open in front of it. -/
theorem Balanced.depthBehind?_eq {u : List Char} (h : Balanced u) (depth : Nat) :
    depthBehind? depth u = some depth := by
  have behind := depthBehind?_add h depth
  rwa [Nat.zero_add] at behind

/-- A text that closes a parenthesis which it has not opened closes it for the first time
somewhere. -/
theorem exists_closing {w : List Char} {depth : Nat} (h : depthBehind? depth w = none) :
    ∃ u rest, w = u ++ ')' :: rest ∧ depthBehind? depth u = some 0 := by
  induction w generalizing depth with
  | nil => cases h
  | cons c w ih =>
    rw [depthBehind?] at h
    split at h
    · rename_i opening
      obtain ⟨u, rest, rfl, closed⟩ := ih h
      exact ⟨c :: u, rest, rfl, by rw [depthBehind?, if_pos opening, closed]⟩
    · rename_i opening
      split at h
      · rename_i closing
        by_cases zero : depth = 0
        · rw [zero, closing]
          exact ⟨[], w, rfl, rfl⟩
        · rw [if_neg zero] at h
          obtain ⟨u, rest, rfl, closed⟩ := ih h
          exact ⟨c :: u, rest, rfl, by
            rw [depthBehind?, if_neg opening, if_pos closing, if_neg zero, closed]⟩
      · rename_i closing
        obtain ⟨u, rest, rfl, closed⟩ := ih h
        exact ⟨c :: u, rest, rfl, by
          rw [depthBehind?, if_neg opening, if_neg closing, closed]⟩

/-- However many parentheses are open in front of the texts, if one of them closes more than that,
or all of that, then so does the other one. -/
structure ClosesAlike (u w : List Char) : Prop where
  tooMany : ∀ depth, depthBehind? depth u = none ↔ depthBehind? depth w = none
  all : ∀ depth, depthBehind? depth u = some 0 ↔ depthBehind? depth w = some 0

namespace ClosesAlike

variable {u v w : List Char}

theorem of_same (same : ∀ depth, depthBehind? depth u = depthBehind? depth w) :
    ClosesAlike u w where
  tooMany depth := by rw [same]
  all depth := by rw [same]

theorem refl (u : List Char) : ClosesAlike u u :=
  .of_same fun _ => rfl

theorem trans (first : ClosesAlike u v) (last : ClosesAlike v w) : ClosesAlike u w where
  tooMany depth := (first.tooMany depth).trans (last.tooMany depth)
  all depth := (first.all depth).trans (last.all depth)

/-- Behind fronts of the same depth both close alike. -/
theorem append (front front' : List Char)
    (same : ∀ depth, depthBehind? depth front = depthBehind? depth front') (h : ClosesAlike u w) :
    ClosesAlike (front ++ u) (front' ++ w) where
  tooMany depth := by
    rw [depthBehind?_append, depthBehind?_append, same]
    cases depthBehind? depth front' with
    | none => simp
    | some inner => exact h.tooMany inner
  all depth := by
    rw [depthBehind?_append, depthBehind?_append, same]
    cases depthBehind? depth front' with
    | none => simp
    | some inner => exact h.all inner

theorem balanced_iff (h : ClosesAlike u w) : Balanced u ↔ Balanced w :=
  h.all 0

end ClosesAlike

/-! ## Rewriting -/

/-- In a call that stays open nothing is inserted. -/
theorem insertBehind_of_open {out : List Char} {inner : Nat}
    (inside : depthBehind? 0 out = some inner) (closing : List Char) :
    insertBehind 1 closing out = out := by
  have unchanged := insertBehind_of_depth inside closing []
  rw [List.append_nil, show insertBehind (inner + 1) closing [] = [] from rfl,
    List.append_nil] at unchanged
  exact unchanged

/-- What is inserted stands behind the parenthesis that closes the call. -/
theorem insertBehind_of_closed {u : List Char} (closed : depthBehind? 0 u = some 0)
    (closing rest : List Char) :
    insertBehind 1 closing (u ++ ')' :: rest) = u ++ ')' :: (closing ++ rest) := by
  rw [← insertBehind_outermost]
  exact insertBehind_of_depth closed _ _

/-- A call that is closed closes what it opens, and one that stays open leaves open at least its own
parenthesis. -/
theorem closesAlike_call (mode : AngleMode) (f : SurfaceFunction) (out : List Char) :
    ClosesAlike ('(' :: out) (f.opening mode ++ insertAfterClosing (f.closing mode) out) := by
  rw [f.closing_eq_isAngular, insertAfterClosing_eq]
  have opened : ∀ depth, depthBehind? depth ('(' :: out) = depthBehind? (depth + 1) out :=
    fun _ => rfl
  have wrapped : ∀ depth w, depthBehind? depth (f.opening mode ++ w) =
      depthBehind? (depth + ((mode.closing f.isAngular).length + 1)) w := by
    intro depth w
    rw [depthBehind?_append, f.depthBehind?_opening, Option.bind_some]
  cases inside : depthBehind? 0 out with
  | some inner =>
    have behind := depthBehind?_add inside
    simp only [Nat.zero_add] at behind
    rw [insertBehind_of_open inside]
    constructor <;> intro depth <;> simp [opened, wrapped, behind]
  | none =>
    obtain ⟨u, rest, rfl, closed⟩ := exists_closing inside
    refine .of_same fun depth => ?_
    have behind := Balanced.depthBehind?_eq closed
    rw [opened, wrapped, insertBehind_of_closed closed, depthBehind?_append, behind,
      depthBehind?_append, behind, Option.bind_some, Option.bind_some,
      Nat.add_comm depth (List.length _ + 1), AngleMode.depthBehind?_closing]
    rfl

theorem depthBehind?_singleton {c : Char} (opening : c ≠ '(') (closing : c ≠ ')') (depth : Nat) :
    depthBehind? depth [c] = some depth :=
  depthBehind?_plain (by simpa using ⟨opening, closing⟩) depth

theorem SurfaceFunction.depthBehind?_name (f : SurfaceFunction) (depth : Nat) :
    depthBehind? depth f.name = some depth := by
  refine depthBehind?_plain (fun c member => ?_) depth
  have letter := f.isNameChar_name c member
  constructor <;> rintro rfl <;> cases letter

/-- A text and what it is rewritten to close alike. -/
theorem Rewriting.closesAlike {mode : AngleMode} {answer : Binary64} {before : Option Char}
    {position : Nat} {text out : List Char} {places : List Nat}
    (h : Rewriting mode answer before position text out places) : ClosesAlike text out := by
  induction h with
  | ending => exact .refl []
  | kept c further ih => exact ih.append [c] [c] fun _ => rfl
  | pi further ih =>
    refine ih.append ['π'] _ fun depth => ?_
    rw [depthBehind?_enclosedLiteral, depthBehind?_singleton (by decide) (by decide)]
  | power further ih => exact ih.append ['^'] ['*', '*'] fun _ => rfl
  | euler boundary ends further ih =>
    refine ih.append ['e'] _ fun depth => ?_
    rw [depthBehind?_enclosedLiteral, depthBehind?_singleton (by decide) (by decide)]
  | answer boundary ends further ih =>
    refine ih.append _ _ fun depth => ?_
    rw [depthBehind?_enclosedLiteral]
    rfl
  | @call before position f rest out places boundary further ih =>
    exact (ih.append f.name [] f.depthBehind?_name).trans (closesAlike_call mode f out)

/-- Blanks at the ends open and close nothing. -/
theorem closesAlike_trimBlanks (text : List Char) : ClosesAlike text (trimBlanks text) := by
  obtain ⟨lead, trail, whole, -, blank⟩ := exists_append_trimBlanks text
  have plain : ∀ c ∈ lead ++ trail, c ≠ '(' ∧ c ≠ ')' := by
    intro c member
    have visible := blank c member
    constructor <;> rintro rfl <;> cases visible
  generalize trimBlanks text = trimmed at whole ⊢
  subst whole
  refine .of_same fun depth => ?_
  rw [depthBehind?_append, depthBehind?_plain fun c member =>
    plain c (List.mem_append_left _ member), Option.bind_some, depthBehind?_append]
  cases depthBehind? depth trimmed with
  | none => rfl
  | some inner =>
    exact depthBehind?_plain (fun c member => plain c (List.mem_append_right _ member)) _

theorem closesAlike_canonical (mode : AngleMode) (answer : Binary64) (text : List Char) :
    ClosesAlike text (canonical mode answer text) := by
  obtain ⟨places, rewriting⟩ := @exists_rewriting mode answer none none 0
    (trimBlanks text) (agree_self _ _)
  exact (closesAlike_trimBlanks text).trans rewriting.closesAlike

/-! ## Values -/

/-- A canonical text with a value is balanced. -/
theorem balanced_of_evaluateCanonicalWith {registry : Registry} {text : List Char}
    {value : Binary64} (h : evaluateCanonicalWith registry text = .ok value) : Balanced text := by
  obtain ⟨tokens, lexed, valued⟩ := bind_success h
  obtain ⟨t, sentence⟩ := Tokens.sentence_of_value valued
  exact sentence.balanced (Tokens.leads_of_ofText lexed)

/-- The canonical form of an expression is balanced exactly if the expression is, in both angle
modes and with every last answer. So an expression that is not balanced has no value, whatever the
functions compute. -/
theorem balanced_canonical_iff (mode : AngleMode) (answer : Binary64) (expression : List Char) :
    (Balanced (canonical mode answer expression) ↔ Balanced expression) ∧
      ∀ registry, ¬ Balanced expression →
        ∃ fault, evaluateWith registry expression mode answer = .error fault := by
  have alike := (closesAlike_canonical mode answer expression).balanced_iff
  refine ⟨alike.symm, fun registry unbalanced => ?_⟩
  cases outcome : evaluateWith registry expression mode answer with
  | error fault => exact ⟨fault, rfl⟩
  | ok value =>
    obtain ⟨form, formed, evaluated⟩ := bind_success outcome
    rw [canonicalize] at formed
    split at formed
    · cases formed
    · cases formed
      exact absurd (alike.2 (balanced_of_evaluateCanonicalWith evaluated)) unbalanced

/-- A call of an angle that is never closed has no value in degrees, and its wrapper stays open,
too. -/
theorem evaluate_unclosed_sine :
    canonical .degrees .zero "2(sin(30)+sin(60".toList =
        "2(sin(radians(30))+sin(radians(60".toList ∧
      ¬ Balanced "2(sin(30)+sin(60".toList ∧
      ¬ Balanced (canonical .degrees .zero "2(sin(30)+sin(60".toList) ∧
      ∃ fault, evaluate "2(sin(30)+sin(60".toList .degrees .zero = .error fault := by
  have unbalanced : ¬ Balanced "2(sin(30)+sin(60".toList := by decide
  obtain ⟨form, value⟩ := balanced_canonical_iff .degrees .zero "2(sin(30)+sin(60".toList
  exact ⟨by decide +kernel, unbalanced, fun balanced => unbalanced (form.1 balanced),
    value .standard unbalanced⟩

end Calculator
