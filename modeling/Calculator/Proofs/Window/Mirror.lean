import Calculator.Proofs.Checked.Session
import Calculator.Window

/-!
# The window mirrors the session

Keys and buttons send only tokens that the session knows, and with a library that has every factorial
the session refuses none of these, so every event is handled to its end. A handled event leaves the
fields as the session has them, and the three places that tell whether the inverse functions are
chosen in agreement: the colours of the toggle, the texts of the science buttons and the tokens that
they send.
-/
namespace Calculator

namespace Window

/-- What the user does to a window. -/
inductive Event where
  /-- A key with the character it types and its name. -/
  | key (typed name : List Char)
  /-- A click on the button that shows a text. -/
  | click (text : List Char)
  deriving DecidableEq, Repr

def handle (library : FactorialLibrary) (event : Event) (w : Window) : Window × Response :=
  match event with
  | .key typed name => w.key library typed name
  | .click text => w.click library text

/-- The window after a sequence of events. -/
def run (library : FactorialLibrary) (events : List Event) (w : Window) : Window :=
  events.foldl (fun w event => (w.handle library event).1) w

end Window

/-! ## Tokens that are sent -/

/-- The session knows the token. -/
def IsKnown (token : List Char) : Prop :=
  (Action.ofToken? token).isSome

instance (token : List Char) : Decidable (IsKnown token) :=
  inferInstanceAs (Decidable (_ = true))

/-- Keys send known tokens only. -/
theorem isKnown_of_key {typed name token : List Char} (h : tokenForKey? typed name = some token) :
    IsKnown token := by
  have named : ∀ key ∈ namedKeys, IsKnown key.2 := by decide +kernel
  have characters : ∀ c ∈ typedCharacters, IsKnown [c] := forall_mem_of_all (by decide)
  unfold tokenForKey? at h
  split at h
  · rename_i found
    cases h
    obtain ⟨before, behind, same, -⟩ := List.lookup_eq_some_iff.1 found
    exact named (name, token) (by rw [same]; simp)
  · split at h
    · split at h
      · rename_i typed
        cases h
        exact characters _ (by simpa using typed)
      · cases h
    · cases h

namespace Window

/-- Buttons send known tokens only, whatever texts they show. -/
theorem isKnown_of_button {w : Window} {text token : List Char}
    (h : (text, .send token) ∈ w.buttons) : IsKnown token := by
  have memory : ∀ token ∈ memoryKeys, IsKnown token := by decide +kernel
  have science : ∀ inverse, ∀ k ∈ scienceKeys, IsKnown (k.sent inverse) := by decide +kernel
  have keys : ∀ key ∈ keypad.flatten, IsKnown key.token := by decide +kernel
  simp only [buttons, List.mem_append, List.mem_cons, List.not_mem_nil, or_false, List.mem_map,
    Prod.mk.injEq, reduceCtorEq, and_false, ButtonAction.send.injEq] at h
  rcases h with ((⟨-, rfl⟩ | ⟨token, member, -, rfl⟩) | zipped) | ⟨key, member, -, rfl⟩
  · decide
  · exact memory _ member
  · obtain ⟨k, member, sent⟩ := List.mem_map.1 (List.of_mem_zip zipped).2
    cases sent
    exact science w.inverse k member
  · exact keys key member

end Window

/-! ## Tokens that are handled -/

namespace Session

variable (s : Session)

/-- The evaluator of the standard registry reports every failure, and what is reported is handled. -/
theorem exists_evaluate : ∃ outcome, s.evaluate standardEvaluator = .ok outcome := by
  unfold evaluate
  split
  · exact ⟨_, rfl⟩
  · rcases Checked.evaluate_standard s.expression s.mode s.answer with
      ⟨value, -, standard⟩ | ⟨error, -, standard⟩
    · rw [standard]
      exact ⟨_, rfl⟩
    · rw [standard]
      exact ⟨_, rfl⟩

theorem exists_memoryAdd : ∃ outcome, s.memoryAdd standardEvaluator = .ok outcome := by
  unfold memoryAdd
  split
  · exact ⟨_, rfl⟩
  · rcases Checked.evaluate_standard s.expression s.mode s.answer with
      ⟨value, -, standard⟩ | ⟨error, -, standard⟩
    · rw [standard]
      exact ⟨_, rfl⟩
    · rw [standard]
      exact ⟨_, rfl⟩

/-- No action is refused. -/
theorem perform_not_refused {library : FactorialLibrary} (complete : library.IsComplete)
    (action : Action) (refusal : Refusal) :
    (s.perform standardEvaluator library action).2 ≠ .refused refusal := by
  intro refused
  cases action with
  | evaluate =>
    obtain ⟨outcome, same⟩ := s.exists_evaluate
    rw [perform, same] at refused
    cases refused
  | memoryAdd =>
    obtain ⟨outcome, same⟩ := s.exists_memoryAdd
    rw [perform, same] at refused
    cases refused
  | factorial =>
    obtain ⟨outcome, same⟩ := Checked.exists_taken s complete
    rw [perform, same] at refused
    cases refused
  | append | deleteLast | clear | toggleMode | memoryClear | memoryRecall =>
    cases refused

end Session

/-- A known token is used: the session does what it stands for, and the fields are written anew. -/
theorem Window.sendToken_eq {library : FactorialLibrary} (complete : library.IsComplete)
    {token : List Char} (known : IsKnown token) (w : Window) :
    w.sendToken library token =
      (refresh { w with session := (w.session.press standardEvaluator library token).1 }, .used) := by
  obtain ⟨action, found⟩ := Option.isSome_iff_exists.1 known
  have performed := w.session.perform_not_refused complete action
  rw [sendToken, Window.press, Session.press, found]
  dsimp only
  cases outcome : w.session.perform standardEvaluator library action with
  | mk s reply =>
    rw [outcome] at performed
    cases reply with
    | refused refusal => exact absurd rfl (performed refusal)
    | done | result => rfl

namespace Checked

/-- Sends a token to the session and writes the fields anew. -/
def sendToken (library : FactorialLibrary) (token : List Char) (w : Window) :
    Except Slip Window := do
  let session ← press library token w.session
  .ok (Window.refresh { w with session := session })

/-- Chooses between the science functions and their inverses; each of them has to have its button. -/
def toggleInverse (w : Window) : Except Slip Window :=
  if w.scienceTexts.length = scienceKeys.length then .ok w.toggleInverse else .error .outOfRange

def handle (library : FactorialLibrary) (event : Window.Event) (w : Window) : Except Slip Window :=
  match event with
  | .key typed name =>
    match tokenForKey? typed name with
    | none => .ok w
    | some token => sendToken library token w
  | .click text =>
    match w.buttons.lookup text with
    | none => .ok w
    | some .toggleInverse => toggleInverse w
    | some (.send token) => sendToken library token w

/-- The window after a sequence of events, if nothing slips. -/
def run (library : FactorialLibrary) : List Window.Event → Window → Except Slip Window
  | [], w => .ok w
  | event :: events, w => do
    let w ← handle library event w
    run library events w

theorem sendToken_eq {library : FactorialLibrary} (complete : library.IsComplete)
    {token : List Char} (known : IsKnown token) (w : Window) :
    sendToken library token w = .ok (w.sendToken library token).1 := by
  rw [sendToken, press_eq w.session complete known, w.sendToken_eq complete known]
  rfl

end Checked

namespace Window

/-- The button that a click finds sends a known token, if it sends one. -/
theorem isKnown_of_click {w : Window} {text token : List Char}
    (found : w.buttons.lookup text = some (.send token)) : IsKnown token := by
  obtain ⟨before, behind, same, -⟩ := List.lookup_eq_some_iff.1 found
  have member : (text, .send token) ∈ w.buttons := by
    rw [same]
    exact List.mem_append_right _ List.mem_cons_self
  exact isKnown_of_button member

/-- What an event does, by the ways it can go: the window stays, the toggle is pressed, or a known
token is sent. -/
theorem handle_cases (library : FactorialLibrary) (w : Window) (event : Event) :
    (Checked.handle library event w = .ok w ∧ w.handle library event = (w, .ignored)) ∨
    (Checked.handle library event w = Checked.toggleInverse w ∧
      w.handle library event = (w.toggleInverse, .used)) ∨
    ∃ token, IsKnown token ∧ Checked.handle library event w = Checked.sendToken library token w ∧
      w.handle library event = w.sendToken library token := by
  cases event with
  | key typed name =>
    unfold Checked.handle handle key
    dsimp only
    cases found : tokenForKey? typed name with
    | none => exact .inl ⟨rfl, rfl⟩
    | some token => exact .inr (.inr ⟨token, isKnown_of_key found, rfl, rfl⟩)
  | click text =>
    unfold Checked.handle handle click
    dsimp only
    cases found : w.buttons.lookup text with
    | none => exact .inl ⟨rfl, rfl⟩
    | some action =>
      cases action with
      | toggleInverse => exact .inr (.inl ⟨rfl, rfl⟩)
      | send token => exact .inr (.inr ⟨token, isKnown_of_click found, rfl, rfl⟩)

/-! ## What the window shows -/

/-- The fields are those of the session, and the toggle and the science buttons show the same choice
of functions. -/
structure Mirrors (w : Window) : Prop where
  expression : w.expressionField = w.session.expression
  result : w.resultField = w.session.result
  angle : w.angleText = w.session.mode.label
  colours : w.inverseColours = toggleColours w.inverse
  science : w.scienceTexts = scienceKeys.map (·.shown w.inverse)

theorem mirrors_openOn (s : Session) : (openOn s).Mirrors :=
  ⟨rfl, rfl, rfl, rfl, rfl⟩

namespace Mirrors

variable {w : Window} {library : FactorialLibrary}

theorem refresh (h : w.Mirrors) (s : Session) :
    (Window.refresh { w with session := s }).Mirrors :=
  ⟨rfl, rfl, rfl, h.colours, h.science⟩

theorem toggleInverse (h : w.Mirrors) : w.toggleInverse.Mirrors :=
  ⟨h.expression, h.result, h.angle, rfl, rfl⟩

/-- One event is handled to its end, and the window mirrors the session behind it too. -/
theorem handle (h : w.Mirrors) (complete : library.IsComplete) (event : Event) :
    Checked.handle library event w = .ok (w.handle library event).1 ∧
      (w.handle library event).1.Mirrors := by
  rcases handle_cases library w event with
    ⟨checked, ignored⟩ | ⟨checked, toggled⟩ | ⟨token, known, checked, sent⟩
  · rw [checked, ignored]
    exact ⟨rfl, h⟩
  · have buttons : w.scienceTexts.length = scienceKeys.length := by rw [h.science, List.length_map]
    rw [checked, toggled]
    exact ⟨if_pos buttons, h.toggleInverse⟩
  · rw [checked, sent, Checked.sendToken_eq complete known,
      sendToken_eq complete known]
    exact ⟨rfl, h.refresh _⟩

/-- Every sequence of events is handled to its end, and the window mirrors the session all the way. -/
theorem run (h : w.Mirrors) (complete : library.IsComplete) (events : List Event) :
    Checked.run library events w = .ok (w.run library events) ∧
      (w.run library events).Mirrors := by
  induction events generalizing w with
  | nil => exact ⟨rfl, h⟩
  | cons event events ih =>
    obtain ⟨handled, mirrors⟩ := h.handle complete event
    rw [Checked.run, handled]
    exact ih mirrors

end Mirrors

/-- The buttons for an angle mode and a choice of functions. -/
def shownButtons (mode : AngleMode) (inverse : Bool) : List (List Char × ButtonAction) :=
  [(mode.label, .send "mode".toList), ("INV".toList, .toggleInverse)] ++
    memoryKeys.map (fun token => (token, .send token)) ++
    scienceKeys.map (fun k => (k.shown inverse, .send (k.sent inverse))) ++
    keypad.flatten.map fun key => (key.text, .send key.token)

theorem Mirrors.buttons_eq {w : Window} (h : w.Mirrors) :
    w.buttons = shownButtons w.session.mode w.inverse := by
  rw [buttons, h.angle, h.science, List.zip_map', shownButtons]

/-- No two buttons show the same text, so a click is on one of them. -/
theorem lookup_shownButtons (mode : AngleMode) (inverse : Bool) :
    ∀ b ∈ shownButtons mode inverse, (shownButtons mode inverse).lookup b.1 = some b.2 := by
  cases mode <;> cases inverse <;> decide +kernel

/-- Whatever is done with keys and with buttons of a window on a new session, every event is handled to
its end, with a library that has every factorial: nothing slips and nothing is refused. Then the
fields are those of the session, the colours of the toggle, the texts of the science buttons and the
tokens that they send are those of one choice of functions, every button is found by the text it
shows, and a key without a token changes nothing. -/
theorem mirrors_run (library : FactorialLibrary) (complete : library.IsComplete)
    (mode : AngleMode) (events : List Event) :
    let w := (openOn (Session.start mode)).run library events
    Checked.run library events (openOn (Session.start mode)) = .ok w ∧
      w.Mirrors ∧
      (∀ k ∈ scienceKeys, w.buttons.lookup (k.shown w.inverse) = some (.send (k.sent w.inverse))) ∧
      (∀ event refusal, (w.handle library event).2 ≠ .refused refusal) ∧
      (∀ text action, (text, action) ∈ w.buttons → w.buttons.lookup text = some action) ∧
      ∀ typed name, tokenForKey? typed name = none →
        w.handle library (.key typed name) = (w, .ignored) := by
  intro w
  obtain ⟨handled, mirrors⟩ := (mirrors_openOn (Session.start mode)).run complete events
  have shown := mirrors.buttons_eq
  refine ⟨handled, mirrors, fun k member => ?_, fun event refusal refused => ?_,
    fun text action member => ?_, fun typed name unmapped => ?_⟩
  · have button : (k.shown w.inverse, ButtonAction.send (k.sent w.inverse)) ∈ w.buttons := by
      rw [shown]
      exact List.mem_append_left _ (List.mem_append_right _ (List.mem_map_of_mem member))
    rw [shown] at button ⊢
    exact lookup_shownButtons _ _ _ button
  · rcases handle_cases library w event with ⟨-, ignored⟩ | ⟨-, toggled⟩ | ⟨token, known, -, sent⟩
    · rw [ignored] at refused
      cases refused
    · rw [toggled] at refused
      cases refused
    · rw [sent, sendToken_eq complete known] at refused
      cases refused
  · rw [shown] at member ⊢
    exact lookup_shownButtons _ _ _ member
  · rw [handle, key, unmapped]

/-- The factorial of a half, typed with keys and then taken with the button of an inverse function. -/
theorem mirrors_run_half :
    let events : List Event := [.key ".".toList "period".toList, .key "5".toList "5".toList,
      .click "INV".toList, .click "n!".toList]
    let w := (openOn (Session.start .degrees)).run .series events
    FactorialLibrary.series.IsComplete ∧
      Checked.run .series events (openOn (Session.start .degrees)) = .ok w ∧ w.Mirrors ∧
      w.inverse = true ∧ w.resultField = "0.886226925452758".toList := by
  intro events w
  have complete := FactorialLibrary.isComplete_series
  obtain ⟨handled, mirrors, -⟩ := mirrors_run .series complete .degrees events
  exact ⟨complete, handled, mirrors, by decide +kernel, by decide +kernel⟩

end Window

end Calculator
