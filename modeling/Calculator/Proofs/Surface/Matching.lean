import Calculator.Proofs.Surface.Parentheses

/-!
# Matching parentheses

The search for the parenthesis that closes another one counts how many are open. It finds the end of
the shortest balanced text from the opening parenthesis on, and nothing exactly if there is none. When
a call behind an open parenthesis is expanded, whether closed or not, what is inserted closes only
what is inserted: the open parenthesis is closed where it was closed before.
-/
namespace Calculator

/-! ## Places -/

/-- The place of the parenthesis that closes the one at a place, if it does not stay open. -/
def closingPlace? (text : List Char) (place : Nat) : Option Nat :=
  (closingOffset? 1 (text.drop (place + 1))).map (place + 1 + ·)

/-- The characters from a place to another one, with those at both places. -/
def between (text : List Char) (first last : Nat) : List Char :=
  (text.drop first).take (last + 1 - first)

/-- From one place to the other the text is balanced, and no shorter one from the same place on is. -/
structure ClosedAt (text : List Char) (first last : Nat) : Prop where
  ordered : first ≤ last
  within : last < text.length
  balanced : Balanced (between text first last)
  shortest : ∀ place, first ≤ place → place < last → ¬ Balanced (between text first place)

theorem ClosedAt.unique {text : List Char} {first last last' : Nat} (h : ClosedAt text first last)
    (h' : ClosedAt text first last') : last = last' := by
  rcases Nat.lt_trichotomy last last' with before | same | behind
  · exact absurd h.balanced (h'.shortest last h.ordered before)
  · exact same
  · exact absurd h'.balanced (h.shortest last' h'.ordered behind)

theorem exists_append_of_getElem? {text : List Char} {place : Nat} {c : Char}
    (h : text[place]? = some c) : ∃ front rest, text = front ++ c :: rest ∧ front.length = place := by
  obtain ⟨within, rfl⟩ := List.getElem?_eq_some_iff.1 h
  refine ⟨text.take place, text.drop (place + 1), ?_, List.length_take_of_le (Nat.le_of_lt within)⟩
  rw [List.getElem_cons_drop, List.take_append_drop]

section Search

variable {front u w rest : List Char} {inner : Nat}

theorem closingPlace?_append (front rest : List Char) (c : Char) :
    closingPlace? (front ++ c :: rest) front.length =
      (closingOffset? 1 rest).map (front.length + 1 + ·) := by
  rw [closingPlace?, List.drop_length_add_append]
  rfl

theorem between_append (front rest : List Char) (c : Char) (offset : Nat) :
    between (front ++ c :: rest) front.length (front.length + offset) = c :: rest.take offset := by
  rw [between, List.drop_left, show front.length + offset + 1 - front.length = offset + 1 by omega,
    List.take_succ_cons]

/-- The outermost parenthesis stays open in a text that closes none but inner ones. -/
theorem closingOffset?_of_open {depth : Nat} (h : depthBehind? depth w = some inner) :
    closingOffset? (depth + 1) w = none := by
  have search := closingOffset?_append h []
  rw [List.append_nil] at search
  exact search

/-- It is closed behind a balanced text. -/
theorem closingOffset?_of_closed (closed : Balanced u) (rest : List Char) :
    closingOffset? 1 (u ++ ')' :: rest) = some u.length := by
  rw [closingOffset?_append closed, closingOffset?, if_neg (by decide), if_pos rfl,
    if_pos (Nat.le_refl 1), Option.map_some, Nat.zero_add]

theorem not_balanced_opening (h : depthBehind? 0 w = some inner) (offset : Nat) :
    ¬ Balanced ('(' :: w.take offset) := by
  rw [← List.take_append_drop offset w, depthBehind?_append] at h
  obtain ⟨depth, before, -⟩ := Option.bind_eq_some_iff.1 h
  have behind : depthBehind? 0 ('(' :: w.take offset) = some (depth + 1) := depthBehind?_add before 1
  rw [Balanced, behind, Option.some.injEq]
  exact Nat.succ_ne_zero depth

theorem closedAt_append (closed : Balanced u) :
    ClosedAt (front ++ '(' :: (u ++ ')' :: rest)) front.length (front.length + (u.length + 1)) where
  ordered := Nat.le_add_right _ _
  within := by simp
  balanced := by
    rw [between_append, List.take_length_add_append]
    have inside : depthBehind? 0 ('(' :: (u ++ [')'])) = depthBehind? 1 (u ++ [')']) := rfl
    rw [List.take_succ_cons, List.take_zero, Balanced, inside, depthBehind?_append,
      closed.depthBehind?_eq]
    rfl
  shortest place behind before := by
    obtain ⟨offset, rfl⟩ := Nat.exists_eq_add_of_le behind
    rw [between_append, List.take_append_of_le_length (by omega)]
    exact not_balanced_opening closed offset

end Search

/-- The search from an open parenthesis finds the place where it is closed, or there is none. -/
theorem closingPlace?_cases {text : List Char} {first : Nat} (opening : text[first]? = some '(') :
    (∃ last, closingPlace? text first = some last ∧ ClosedAt text first last) ∨
      closingPlace? text first = none ∧ ∀ last, first ≤ last → ¬ Balanced (between text first last) := by
  obtain ⟨front, w, rfl, rfl⟩ := exists_append_of_getElem? opening
  rw [closingPlace?_append]
  cases inside : depthBehind? 0 w with
  | none =>
    obtain ⟨u, rest, rfl, closed⟩ := exists_closing inside
    rw [closingOffset?_of_closed closed]
    exact .inl ⟨_, by rw [Option.map_some, Nat.add_right_comm, Nat.add_assoc], closedAt_append closed⟩
  | some inner =>
    rw [closingOffset?_of_open inside]
    refine .inr ⟨rfl, fun last behind => ?_⟩
    obtain ⟨offset, rfl⟩ := Nat.exists_eq_add_of_le behind
    rw [between_append]
    exact not_balanced_opening inside offset

/-- A parenthesis in a front is closed there, or the search goes on with what the front leaves open
inside of it. -/
theorem closingPlace?_front {front : List Char} {first : Nat} (opening : front[first]? = some '(') :
    (∃ last, last < front.length ∧ ∀ w, closingPlace? (front ++ w) first = some last) ∨
      ∃ depth, ∀ {u : List Char} {inner : Nat}, depthBehind? depth u = some inner →
        ∀ w, closingPlace? (front ++ (u ++ w)) first =
          (closingOffset? (inner + 1) w).map (front.length + u.length + ·) := by
  obtain ⟨outside, inside, rfl, rfl⟩ := exists_append_of_getElem? opening
  have search : ∀ w, closingPlace? (outside ++ '(' :: inside ++ w) outside.length =
      (closingOffset? 1 (inside ++ w)).map (outside.length + 1 + ·) := by
    intro w
    rw [List.append_assoc, List.cons_append, closingPlace?_append]
  cases behind : depthBehind? 0 inside with
  | none =>
    obtain ⟨u, rest, rfl, closed⟩ := exists_closing behind
    refine .inl ⟨outside.length + 1 + u.length, by simp; omega, fun w => ?_⟩
    rw [search, List.append_assoc, List.cons_append, closingOffset?_of_closed closed]
    rfl
  | some depth =>
    refine .inr ⟨depth, fun {u inner} passed w => ?_⟩
    have whole : depthBehind? 0 (inside ++ u) = some inner := by
      rw [depthBehind?_append, behind, Option.bind_some, passed]
    rw [search, ← List.append_assoc, closingOffset?_append whole, Option.map_map]
    congr 1
    funext offset
    simp only [Function.comp_apply, List.length_append, List.length_cons]
    omega

/-! ## Expanding a call -/

/-- The search from further out passes a call that is closed, with all that it needs in addition. -/
theorem closingOffset?_passing (mode : AngleMode) (angular : Bool) {u : List Char}
    (closed : Balanced u) (depth : Nat) (post : List Char) :
    closingOffset? ((mode.closing angular).length + 1 + depth + 1)
        (u ++ ')' :: (mode.closing angular ++ post)) =
      (closingOffset? (depth + 1) post).map (· + (u.length + 1 + (mode.closing angular).length)) := by
  have passed : depthBehind? ((mode.closing angular).length + 1 + depth)
      (u ++ ')' :: mode.closing angular) = some depth := by
    have behind := AngleMode.depthBehind?_closing mode angular depth []
    rw [List.append_nil] at behind
    rw [depthBehind?_append, closed.depthBehind?_eq]
    exact behind
  have whole : u ++ ')' :: (mode.closing angular ++ post) =
      u ++ ')' :: mode.closing angular ++ post := by simp
  have length : (u ++ ')' :: mode.closing angular).length =
      u.length + 1 + (mode.closing angular).length := by
    simp
    omega
  rw [whole, closingOffset?_append passed, length]

section Expanding

variable (mode : AngleMode) (f : SurfaceFunction) (front rest : List Char)

/-- The text `front`, a call of the function and what stands behind its parenthesis, with the call
expanded. -/
def callExpanded : List Char :=
  front ++ (f.opening mode ++ insertAfterClosing (f.closing mode) rest)

/-- A place behind the parenthesis of a call, counted from there, when the call is expanded. -/
def offsetExpanded (offset : Nat) : Nat :=
  offset + if (closingOffset? 1 rest).any (· < offset) then (f.closing mode).length else 0

/-- A place in the text when the call is expanded. The opening of the call is replaced. -/
def placeExpanded (place : Nat) : Nat :=
  if place < front.length then place
  else front.length + (f.opening mode).length +
    offsetExpanded mode f rest (place - (front.length + f.name.length + 1))

variable {mode f front rest}

theorem offsetExpanded_of_open {inner : Nat} (h : depthBehind? 0 rest = some inner) (offset : Nat) :
    offsetExpanded mode f rest offset = offset := by
  rw [offsetExpanded, closingOffset?_of_open h]
  rfl

theorem offsetExpanded_of_closed {u : List Char} (closed : Balanced u) (post : List Char)
    (offset : Nat) : offsetExpanded mode f (u ++ ')' :: post) offset =
      offset + if u.length < offset then (f.closing mode).length else 0 := by
  rw [offsetExpanded, closingOffset?_of_closed closed, Option.any_some]
  simp only [decide_eq_true_eq]

theorem offsetExpanded_lt {offset offset' : Nat} (before : offset < offset') :
    offsetExpanded mode f rest offset < offsetExpanded mode f rest offset' := by
  cases inside : depthBehind? 0 rest with
  | some inner => rwa [offsetExpanded_of_open inside, offsetExpanded_of_open inside]
  | none =>
    obtain ⟨u, post, rfl, closed⟩ := exists_closing inside
    rw [offsetExpanded_of_closed closed, offsetExpanded_of_closed closed]
    split <;> split <;> omega

/-- What stands behind the parenthesis of a call stays. -/
theorem getElem?_insertAfterClosing (offset : Nat) :
    (insertAfterClosing (f.closing mode) rest)[offsetExpanded mode f rest offset]? =
      rest[offset]? := by
  rw [insertAfterClosing_eq]
  cases inside : depthBehind? 0 rest with
  | some inner => rw [insertBehind_of_open inside, offsetExpanded_of_open inside]
  | none =>
    obtain ⟨u, post, rfl, closed⟩ := exists_closing inside
    have call : ∀ w, u ++ ')' :: w = u ++ [')'] ++ w := fun w => (List.append_assoc u [')'] w).symm
    have length : (u ++ [')']).length = u.length + 1 := List.length_append
    rw [insertBehind_of_closed closed, offsetExpanded_of_closed closed,
      call (f.closing mode ++ post), call post]
    split
    · rw [List.getElem?_append_right (by omega), List.getElem?_append_right (by omega),
        List.getElem?_append_right (by omega)]
      congr 1
      omega
    · rw [Nat.add_zero, List.getElem?_append_left (by omega)]
      exact (List.getElem?_append_left (by omega)).symm

/-- The search from further out passes a call alike before it is expanded and after that. -/
theorem closingOffset?_insertAfterClosing (depth : Nat) :
    closingOffset? ((f.closing mode).length + 1 + depth + 1)
        (insertAfterClosing (f.closing mode) rest) =
      (closingOffset? (depth + 2) rest).map (offsetExpanded mode f rest) := by
  rw [insertAfterClosing_eq]
  cases inside : depthBehind? 0 rest with
  | some inner =>
    have stays : ∀ more, closingOffset? (more + 1) rest = none := by
      intro more
      have behind := depthBehind?_add inside more
      rw [Nat.zero_add] at behind
      exact closingOffset?_of_open behind
    rw [insertBehind_of_open inside, stays, stays]
    rfl
  | none =>
    obtain ⟨u, post, rfl, closed⟩ := exists_closing inside
    have before : closingOffset? (depth + 2) (u ++ ')' :: post) =
        (closingOffset? (depth + 1) post).map (· + (u.length + 1)) := by
      have plain := closingOffset?_passing mode false closed depth post
      rw [AngleMode.closing_false, List.nil_append, List.length_nil, Nat.zero_add,
        Nat.add_comm 1 depth] at plain
      exact plain
    rw [insertBehind_of_closed closed, f.closing_eq_isAngular,
      closingOffset?_passing mode f.isAngular closed, before, Option.map_map]
    congr 1
    funext offset
    rw [Function.comp_apply, offsetExpanded_of_closed closed, if_pos (by omega),
      f.closing_eq_isAngular]
    omega

theorem placeExpanded_before {place : Nat} (before : place < front.length) :
    placeExpanded mode f front rest place = place :=
  if_pos before

theorem placeExpanded_behind (offset : Nat) :
    placeExpanded mode f front rest (front.length + f.name.length + 1 + offset) =
      front.length + (f.opening mode).length + offsetExpanded mode f rest offset := by
  rw [placeExpanded, if_neg (by omega), Nat.add_sub_cancel_left]

/-- A place outside of the opening of the call. -/
def IsKept (f : SurfaceFunction) (front : List Char) (place : Nat) : Prop :=
  place < front.length ∨ front.length + f.name.length + 1 ≤ place

/-- Each character outside of the opening of the call stands at its new place. -/
theorem getElem?_callExpanded {place : Nat} (kept : IsKept f front place) :
    (callExpanded mode f front rest)[placeExpanded mode f front rest place]? =
      (front ++ (f.name ++ '(' :: rest))[place]? := by
  rw [callExpanded]
  rcases kept with before | behind
  · rw [placeExpanded_before before, List.getElem?_append_left before,
      List.getElem?_append_left before]
  · obtain ⟨offset, rfl⟩ := Nat.exists_eq_add_of_le behind
    have call : front ++ (f.name ++ '(' :: rest) = front ++ (f.name ++ ['(']) ++ rest := by simp
    have length : (front ++ (f.name ++ ['('])).length = front.length + f.name.length + 1 := by
      simp
      omega
    rw [placeExpanded_behind, ← List.append_assoc, ← List.length_append,
      List.getElem?_append_right (Nat.le_add_right _ _), Nat.add_sub_cancel_left,
      getElem?_insertAfterClosing, call, ← length, List.getElem?_append_right (Nat.le_add_right _ _),
      Nat.add_sub_cancel_left]

/-- The order of the characters stays. -/
theorem placeExpanded_lt {place place' : Nat} (kept : IsKept f front place)
    (kept' : IsKept f front place') (order : place < place') :
    placeExpanded mode f front rest place < placeExpanded mode f front rest place' := by
  rcases kept with before | behind
  · rw [placeExpanded_before before]
    rcases kept' with before' | behind'
    · rwa [placeExpanded_before before']
    · obtain ⟨offset, rfl⟩ := Nat.exists_eq_add_of_le behind'
      rw [placeExpanded_behind]
      omega
  · obtain ⟨offset, rfl⟩ := Nat.exists_eq_add_of_le behind
    obtain ⟨offset', rfl⟩ := Nat.exists_eq_add_of_le (Nat.le_trans behind (Nat.le_of_lt order))
    rw [placeExpanded_behind, placeExpanded_behind]
    exact Nat.add_lt_add_left (offsetExpanded_lt (by omega)) _

/-- Where a parenthesis in front of a call is closed, it is closed when the call is expanded. -/
theorem closingPlace?_callExpanded {first : Nat} (opening : front[first]? = some '(') :
    (∀ last, closingPlace? (front ++ (f.name ++ '(' :: rest)) first = some last →
      IsKept f front last) ∧
    closingPlace? (callExpanded mode f front rest) first =
      (closingPlace? (front ++ (f.name ++ '(' :: rest)) first).map
        (placeExpanded mode f front rest) := by
  rcases closingPlace?_front opening with ⟨last, before, closed⟩ | ⟨depth, onward⟩
  · rw [callExpanded, closed, closed, Option.map_some, placeExpanded_before before]
    exact ⟨fun last' same => Option.some.inj same ▸ .inl before, rfl⟩
  · -- the search passes the opening of the call, or what it is expanded to
    have written : depthBehind? depth (f.name ++ ['(']) = some (depth + 1) := by
      rw [depthBehind?_append, f.depthBehind?_name]
      rfl
    have expanded : depthBehind? depth (f.opening mode) =
        some ((f.closing mode).length + 1 + depth) := by
      rw [f.depthBehind?_opening, Nat.add_comm]
      rfl
    have call : f.name ++ '(' :: rest = f.name ++ ['('] ++ rest := by simp
    have place : ∀ offset, front.length + (f.name ++ ['(']).length + offset =
        front.length + f.name.length + 1 + offset := fun offset => by simp; omega
    rw [callExpanded, call, onward written, onward expanded, closingOffset?_insertAfterClosing]
    simp only [place, Option.map_map]
    refine ⟨fun last found => ?_, ?_⟩
    · obtain ⟨offset, -, rfl⟩ := Option.map_eq_some_iff.1 found
      exact .inr (by omega)
    · congr 1
      funext offset
      rw [Function.comp_apply, Function.comp_apply, placeExpanded_behind]

end Expanding

/-! ## The whole pass -/

/-- A text and the same text with its calls expanded close alike. -/
theorem closesAlike_expandCalls (mode : AngleMode) (before : Option Char) (text : List Char) :
    ClosesAlike text (expandCalls mode 0 before text) := by
  match text with
  | [] => exact .refl []
  | c :: rest =>
    cases call : SurfaceFunction.callAt? before (c :: rest) with
    | none =>
      rw [expandCalls_kept call]
      exact (closesAlike_expandCalls mode (some c) rest).append [c] [c] fun _ => rfl
    | some f =>
      obtain ⟨boundary, inside, same⟩ := callAt?_eq_some call
      have shorter : inside.length < (c :: rest).length := by
        rw [same, List.length_append, List.length_cons]
        omega
      have inner := (closesAlike_expandCalls mode (some '(') inside).append ['('] ['('] fun _ => rfl
      rw [same, expandCalls_call f boundary]
      exact (inner.append f.name [] f.depthBehind?_name).trans (closesAlike_call mode f _)
termination_by text.length
decreasing_by
  all_goals
    simp only [List.length_cons] at *
    omega

/-- Up to the parenthesis that closes it and behind that, a balanced text is expanded by itself. -/
theorem expandCalls_closing {mode : AngleMode} {u : List Char} (closed : Balanced u)
    (before : Option Char) (rest : List Char) :
    expandCalls mode 0 before (u ++ ')' :: rest) =
      expandCalls mode 0 before u ++ ')' :: expandCalls mode 0 (some ')') rest := by
  have cut : NoCallAcross u (')' :: rest) := .inr fun d head => by
    cases head
    decide
  have balanced := (closesAlike_expandCalls mode before u).balanced_iff.1 closed
  rw [expandCalls_eq_expandOnward] at balanced
  simp only [expandCalls_eq_expandOnward]
  rw [expandOnward_append (Nat.zero_le _) cut, openBehind_of_balanced balanced,
    expandOnward_closing, List.headD_nil, AngleMode.closing_false]
  rfl

/-- Behind an open parenthesis all calls may be expanded: it is closed where it was closed before, with
what stands inside expanded, and stays open if it was open. So each call is closed in the expanded
text where the text itself closes it. -/
theorem closingOffset?_expandCalls (mode : AngleMode) (before : Option Char) (text : List Char) :
    closingOffset? 1 (expandCalls mode 0 before text) =
      (closingOffset? 1 text).map fun offset =>
        (expandCalls mode 0 before (text.take offset)).length := by
  have alike := closesAlike_expandCalls mode before text
  cases inside : depthBehind? 0 text with
  | some inner =>
    cases expanded : depthBehind? 0 (expandCalls mode 0 before text) with
    | none =>
      rw [(alike.tooMany 0).2 expanded] at inside
      cases inside
    | some inner' =>
      rw [closingOffset?_of_open inside, closingOffset?_of_open expanded]
      rfl
  | none =>
    obtain ⟨u, rest, rfl, closed⟩ := exists_closing inside
    have balanced := (closesAlike_expandCalls mode before u).balanced_iff.1 closed
    rw [expandCalls_closing closed, closingOffset?_of_closed balanced, closingOffset?_of_closed closed,
      Option.map_some, List.take_left]

/-- The search from an open parenthesis finds a place exactly if the text up to it is balanced and no
shorter one is, and none exactly if no text from there on is balanced. When a call behind the
parenthesis is expanded, all characters but those of its opening move to new places in their order,
and the search from the parenthesis finds the new place of what it found before, or again nothing;
likewise when all calls behind it are expanded. -/
theorem closingPlace?_exact :
    (∀ (text : List Char) (first : Nat), text[first]? = some '(' →
      (∀ last, closingPlace? text first = some last ↔ ClosedAt text first last) ∧
      (closingPlace? text first = none ↔
        ∀ last, first ≤ last → last < text.length → ¬ Balanced (between text first last))) ∧
    (∀ (mode : AngleMode) (f : SurfaceFunction) (front rest : List Char),
      let text := front ++ (f.name ++ '(' :: rest)
      let expanded := callExpanded mode f front rest
      let moved := placeExpanded mode f front rest
      (∀ place, IsKept f front place → expanded[moved place]? = text[place]? ∧
        ∀ place', IsKept f front place' → place < place' → moved place < moved place') ∧
      ∀ first, front[first]? = some '(' →
        (∀ last, closingPlace? text first = some last → IsKept f front last) ∧
        closingPlace? expanded first = (closingPlace? text first).map moved) ∧
    ∀ (mode : AngleMode) (before : Option Char) (text : List Char),
      closingOffset? 1 (expandCalls mode 0 before text) =
        (closingOffset? 1 text).map fun offset =>
          (expandCalls mode 0 before (text.take offset)).length := by
  refine ⟨fun text first opening => ?_, fun mode f front rest => ⟨fun place kept =>
    ⟨getElem?_callExpanded kept, fun place' kept' => placeExpanded_lt kept kept'⟩,
    fun first opening => closingPlace?_callExpanded opening⟩, closingOffset?_expandCalls⟩
  rcases closingPlace?_cases opening with ⟨found, search, closed⟩ | ⟨search, unbalanced⟩
  · rw [search]
    refine ⟨fun last => ⟨fun same => Option.some.inj same ▸ closed, fun closed' => ?_⟩, ?_⟩
    · rw [closed.unique closed']
    · exact ⟨nofun, fun unbalanced => absurd closed.balanced
        (unbalanced found closed.ordered closed.within)⟩
  · rw [search]
    refine ⟨fun last => ⟨nofun, fun closed => ?_⟩, fun _ last behind _ => unbalanced last behind,
      fun _ => rfl⟩
    exact absurd closed.balanced (unbalanced last closed.ordered)

/-- Of two parentheses in front of a call one is closed behind it and the other one stays open, before
the call is expanded and after that. -/
theorem closingPlace?_exact_around_sine :
    let text := "((1+".toList ++ (SurfaceFunction.sin.name ++ '(' :: "30))*2".toList)
    let expanded := callExpanded .degrees .sin "((1+".toList "30))*2".toList
    text = "((1+sin(30))*2".toList ∧ expanded = "((1+sin(radians(30)))*2".toList ∧
      text[1]? = some '(' ∧ ClosedAt text 1 11 ∧ closingPlace? expanded 1 = some 20 ∧
      IsKept .sin "((1+".toList 11 ∧ expanded[20]? = text[11]? ∧
      text[0]? = some '(' ∧
      (∀ last, 0 ≤ last → last < text.length → ¬ Balanced (between text 0 last)) ∧
      closingPlace? expanded 0 = none := by
  intro text expanded
  obtain ⟨exact, single, -⟩ := closingPlace?_exact
  obtain ⟨stays, moved⟩ := single .degrees .sin "((1+".toList "30))*2".toList
  have inner : closingPlace? text 1 = some 11 := by decide
  have outer : closingPlace? text 0 = none := by decide
  have kept := (moved 1 (by decide)).1 11 inner
  refine ⟨by decide, by decide, by decide, ((exact text 1 (by decide)).1 11).1 inner, ?_, kept,
    (stays 11 kept).1, by decide, (exact text 0 (by decide)).2.1 outer, ?_⟩
  · refine (moved 1 (by decide)).2.trans ?_
    rw [inner]
    decide
  · refine (moved 0 (by decide)).2.trans ?_
    rw [outer]
    rfl

end Calculator
