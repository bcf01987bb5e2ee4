import Calculator.Proofs.Surface.Substitution

/-!
# Calls of surface functions

Where a call starts, and the primitives that it stands for. In the text of a number no call starts and
no parenthesis stands.
-/
namespace Calculator

/-- The characters at which the name of a surface function starts. -/
def callStarts : List Char :=
  ['s', 'c', 't', 'a', 'l', 'p']

/-- No call of a surface function starts in the text, after the character before it. -/
def quiet (before : Option Char) : List Char → Bool
  | [] => true
  | c :: rest => (!callStarts.contains c || !isBoundary before) && quiet (some c) rest

theorem quiet_of_notMem {w : List Char} (h : ∀ c ∈ w, c ∉ callStarts) (before : Option Char) :
    quiet before w = true := by
  induction w generalizing before with
  | nil => rfl
  | cons c w ih =>
    have first := h c List.mem_cons_self
    rw [quiet, ih (fun c member => h c (List.mem_cons_of_mem _ member))]
    simp [first]

theorem SurfaceFunction.name_start (f : SurfaceFunction) :
    ∃ start rest, f.name = start :: rest ∧ start ∈ callStarts := by
  cases f <;> exact ⟨_, _, rfl, by decide⟩

theorem callAt?_eq_none {before : Option Char} {c : Char} (rest : List Char)
    (h : c ∉ callStarts ∨ isBoundary before = false) :
    SurfaceFunction.callAt? before (c :: rest) = none := by
  unfold SurfaceFunction.callAt?
  rcases h with h | h
  · split
    · rw [List.find?_eq_none]
      intro f _
      obtain ⟨start, further, name, member⟩ := f.name_start
      have different : start ≠ c := by
        rintro rfl
        exact h member
      simp [name, different]
    · rfl
  · rw [h]
    rfl

theorem callAt?_name (f : SurfaceFunction) {before : Option Char} (h : isBoundary before = true)
    (rest : List Char) : SurfaceFunction.callAt? before (f.name ++ '(' :: rest) = some f := by
  rw [SurfaceFunction.callAt?, if_pos h]
  cases f <;> rfl

theorem callAt?_eq_some {before : Option Char} {text : List Char} {f : SurfaceFunction}
    (h : SurfaceFunction.callAt? before text = some f) :
    isBoundary before = true ∧ ∃ rest, text = f.name ++ '(' :: rest := by
  unfold SurfaceFunction.callAt? at h
  split at h
  · rename_i boundary
    have found := List.find?_some h
    obtain ⟨rest, same⟩ := List.isPrefixOf_iff_prefix.1 found
    exact ⟨boundary, rest, by rw [← same, List.append_assoc]; rfl⟩
  · cases h

/-! ## Calls of primitives -/

/-- A conversion of angles, which only degrees need. -/
def AngleMode.converting (mode : AngleMode) (p : Primitive) : List Primitive :=
  match mode with
  | .degrees => [p]
  | .radians => []

/-- Calls of primitives around a text, the outermost first. -/
def nest (stages : List Primitive) (text : List Char) : List Char :=
  stages.foldr (fun p inner => p.name ++ parenthesized inner) text

theorem nest_eq (stages : List Primitive) (text : List Char) :
    nest stages text =
      stages.flatMap (fun p => p.name ++ ['(']) ++ text ++ List.replicate stages.length ')' := by
  induction stages with
  | nil => simp [nest]
  | cons p stages ih =>
    have inner : nest (p :: stages) text = p.name ++ parenthesized (nest stages text) := rfl
    rw [inner, ih, List.length_cons, List.replicate_succ']
    simp [parenthesized]

namespace SurfaceFunction

/-- The primitives that a call stands for, the outermost first. -/
def stages (mode : AngleMode) : SurfaceFunction → List Primitive
  | .sin => .sin :: mode.converting .radians
  | .cos => .cos :: mode.converting .radians
  | .tan => .tan :: mode.converting .radians
  | .arcsin => mode.converting .degrees ++ [.asin]
  | .arccos => mode.converting .degrees ++ [.acos]
  | .arctan => mode.converting .degrees ++ [.atan]
  | .log => [.log10]
  | .ln => [.log]
  | .sqrt => [.sqrt]
  | .pow10 => [.pow]
  | .powE => [.pow]

/-- The base of a power, before the argument. -/
def base : SurfaceFunction → List Char
  | .pow10 => "10, ".toList
  | .powE => enclosedLiteral .euler ++ ", ".toList
  | _ => []

/-- A call as it is expanded around its argument. -/
def written (mode : AngleMode) (f : SurfaceFunction) (argument : List Char) : List Char :=
  f.opening mode ++ argument ++ ')' :: f.closing mode

theorem opening_eq (mode : AngleMode) (f : SurfaceFunction) :
    f.opening mode = (f.stages mode).flatMap (fun p => p.name ++ ['(']) ++ f.base := by
  cases f with
  | powE => cases mode <;> exact List.append_assoc "pow(".toList _ _
  | _ => cases mode <;> rfl

theorem closing_eq (mode : AngleMode) (f : SurfaceFunction) :
    ')' :: f.closing mode = List.replicate (f.stages mode).length ')' := by
  cases mode <;> cases f <;> rfl

/-- A call is expanded to nested calls of its primitives. -/
theorem written_eq (mode : AngleMode) (f : SurfaceFunction) (argument : List Char) :
    f.written mode argument = nest (f.stages mode) (f.base ++ argument) := by
  rw [written, opening_eq, closing_eq, nest_eq]
  simp only [List.append_assoc]

end SurfaceFunction

/-! ## Literals -/

theorem Numeral.text_plain (n : Numeral) : ∀ c ∈ n.text, c ∉ '(' :: ')' :: callStarts :=
  n.forall_mem_text (Digit.char_notMem (forall_mem_of_all (by decide)))
    (forall_mem_of_all (by decide))

/-- The text of a literal opens and closes no parenthesis, and no call starts in it. -/
theorem literal_plain (x : Binary64) : (∀ c ∈ NumberFormat.literal.text x, c ≠ '(' ∧ c ≠ ')') ∧
    quiet (some '(') (NumberFormat.literal.text x) = true := by
  rcases NumberFormat.literal_cases x with ⟨-, text⟩ | ⟨s, -, text⟩ | ⟨s, -, n, -, text, -⟩
  · rw [text]
    exact ⟨forall_mem_of_all (by decide), by decide⟩
  · rw [text]
    cases s <;> exact ⟨forall_mem_of_all (by decide), by decide⟩
  · have plain := n.text_plain
    simp only [List.mem_cons, not_or] at plain
    have calls := quiet_of_notMem (w := n.text) (fun c member => (plain c member).2.2)
    rw [text]
    cases s with
    | positive => exact ⟨fun c member => ⟨(plain c member).1, (plain c member).2.1⟩, calls _⟩
    | negative =>
      refine ⟨?_, ?_⟩
      · intro c member
        rcases List.mem_cons.1 member with rfl | member
        · decide
        · exact ⟨(plain c member).1, (plain c member).2.1⟩
      · rw [NumberFormat.signed, quiet, calls]
        rfl

theorem enclosedLiteral_append (x : Binary64) (rest : List Char) :
    enclosedLiteral x ++ rest = '(' :: (NumberFormat.literal.text x ++ ')' :: rest) := by
  simp only [enclosedLiteral, List.cons_append, List.append_assoc, List.nil_append]

end Calculator
