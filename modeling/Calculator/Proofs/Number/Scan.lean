import Calculator.Numeral

/-!
# Numerals are found again

The text of a numeral is taken as that numeral wherever nothing behind it goes on with it: no digit,
no point and no mark of a power of ten.
-/
namespace Calculator

/-- A property of the characters of a fixed text is checked one by one. -/
theorem forall_mem_of_all {P : Char → Prop} [DecidablePred P] {text : List Char}
    (h : text.all (fun c => decide (P c)) = true) : ∀ c ∈ text, P c :=
  fun c member => of_decide_eq_true (List.all_eq_true.1 h c member)

namespace Digit

theorem ofChar?_char (d : Digit) : ofChar? d.char = some d := by
  unfold ofChar?
  split
  · rename_i value found
    have same : value = d.value := Option.some.inj (found.symm.trans d.isDigit)
    cases d
    cases same
    rfl
  · rename_i missing
    rw [d.isDigit] at missing
    cases missing

theorem ofChar?_eq_none {c : Char} (h : digitValue? c = none) : ofChar? c = none := by
  unfold ofChar?
  split
  · rename_i value found
    rw [h] at found
    cases found
  · rfl

/-- A character without a value is not the character of a digit. -/
theorem char_ne {c : Char} (h : digitValue? c = none) (d : Digit) : d.char ≠ c := by
  intro same
  have value := d.isDigit
  rw [same, h] at value
  cases value

/-- A run of digits before something else is found again. -/
theorem takeRun_text_append (digits : List Digit) {rest : List Char}
    (stop : rest.head?.bind ofChar? = none) : takeRun (text digits ++ rest) = (digits, rest) := by
  induction digits with
  | nil =>
    cases rest with
    | nil => rfl
    | cons c rest =>
      have noDigit : ofChar? c = none := stop
      simp only [text, List.map_nil, List.nil_append, takeRun, noDigit]
  | cons d digits ih =>
    simp only [text, List.map_cons, List.cons_append, takeRun, ofChar?_char]
    rw [← text, ih]

end Digit

/-- The sign before something that is no sign is found again. -/
theorem Sign.scan_append (sign : Option Sign) {rest : List Char} (plus : rest.head? ≠ some '+')
    (minus : rest.head? ≠ some '-') :
    Sign.scan ((sign.map Sign.char).toList ++ rest) = (sign, rest) := by
  match sign with
  | some .positive => rfl
  | some .negative => rfl
  | none =>
    unfold Sign.scan
    simp only [Option.map_none, Option.toList_none, List.nil_append]
    split
    · exact absurd rfl plus
    · exact absurd rfl minus
    · rfl

namespace PowerOfTen

theorem scan?_text_append (p : PowerOfTen) {rest : List Char}
    (stop : rest.head?.bind Digit.ofChar? = none) : scan? (p.text ++ rest) = some (p, rest) := by
  obtain ⟨sign, digits, digits_ne_nil⟩ := p
  match digits, digits_ne_nil with
  | d :: digits, digits_ne_nil =>
    have plus : (Digit.text (d :: digits) ++ rest).head? ≠ some '+' := by
      simpa [Digit.text] using Digit.char_ne (by decide) d
    have minus : (Digit.text (d :: digits) ++ rest).head? ≠ some '-' := by
      simpa [Digit.text] using Digit.char_ne (by decide) d
    simp only [text, List.cons_append, List.append_assoc, scan?,
      Sign.scan_append sign plus minus, Digit.takeRun_text_append _ stop]
    rfl

theorem scan?_eq_none {cs : List Char} (h : cs.head? ≠ some 'E') : scan? cs = none := by
  unfold scan?
  split
  · exact absurd rfl h
  · rfl

end PowerOfTen

namespace Numeral

/-- Nothing here goes on with a numeral. -/
structure Stops (rest : List Char) : Prop where
  noDigit : rest.head?.bind Digit.ofChar? = none
  noPoint : rest.head? ≠ some '.'
  noPower : rest.head? ≠ some 'E'

theorem stops_nil : Stops [] where
  noDigit := rfl
  noPoint h := by cases h
  noPower h := by cases h

theorem stops_cons {c : Char} (rest : List Char) (digit : digitValue? c = none) (point : c ≠ '.')
    (power : c ≠ 'E') : Stops (c :: rest) where
  noDigit := Digit.ofChar?_eq_none digit
  noPoint := by simpa using point
  noPower := by simpa using power

theorem scanFraction_append (fraction : Option (List Digit)) {rest : List Char}
    (stop : rest.head?.bind Digit.ofChar? = none) (noPoint : rest.head? ≠ some '.') :
    scanFraction (fractionText fraction ++ rest) = (fraction, rest) := by
  cases fraction with
  | some digits =>
    simp only [fractionText, List.cons_append, scanFraction, Digit.takeRun_text_append digits stop]
  | none =>
    simp only [fractionText, List.nil_append]
    unfold scanFraction
    split
    · exact absurd rfl noPoint
    · rfl

/-- A power of ten starts with neither a digit nor a point. -/
theorem head?_powerText (power : Option PowerOfTen) {rest : List Char} (stops : Stops rest) :
    (powerText power ++ rest).head?.bind Digit.ofChar? = none ∧
      (powerText power ++ rest).head? ≠ some '.' := by
  cases power with
  | some power =>
    have mark : Digit.ofChar? 'E' = none := Digit.ofChar?_eq_none (by decide)
    simpa [powerText, PowerOfTen.text] using mark
  | none => exact ⟨stops.noDigit, stops.noPoint⟩

/-- A fraction does not start with a digit. -/
theorem head?_fractionText (fraction : Option (List Digit)) {rest : List Char}
    (stop : rest.head?.bind Digit.ofChar? = none) :
    (fractionText fraction ++ rest).head?.bind Digit.ofChar? = none := by
  cases fraction with
  | some digits =>
    have point : Digit.ofChar? '.' = none := Digit.ofChar?_eq_none (by decide)
    simpa [fractionText] using point
  | none => exact stop

theorem scan?_text_append (n : Numeral) {rest : List Char} (stops : Stops rest) :
    scan? (n.text ++ rest) = some (n, rest) := by
  obtain ⟨whole, fraction, power, digits_ne_nil⟩ := n
  obtain ⟨noDigit, noPoint⟩ := head?_powerText power stops
  have wholeRun := Digit.takeRun_text_append whole (head?_fractionText fraction noDigit)
  have fractionRun := scanFraction_append fraction noDigit noPoint
  unfold scan?
  simp only [text, List.append_assoc, wholeRun, fractionRun, dif_pos digits_ne_nil]
  cases power with
  | some power => simp only [powerText, PowerOfTen.scan?_text_append power stops.noDigit]
  | none => simp only [powerText, List.nil_append, PowerOfTen.scan?_eq_none stops.noPower]

/-- A property of digits and of the other characters of numerals holds in the text of a numeral. -/
theorem forall_mem_text {P : Char → Prop} (digit : ∀ d : Digit, P d.char)
    (others : ∀ c ∈ ['.', 'E', '+', '-'], P c) (n : Numeral) : ∀ c ∈ n.text, P c := by
  have run : ∀ ds : List Digit, ∀ c ∈ Digit.text ds, P c := by
    intro ds c member
    obtain ⟨d, -, rfl⟩ := List.mem_map.1 member
    exact digit d
  intro c member
  simp only [text, List.mem_append] at member
  rcases member with (whole | fraction) | power
  · exact run _ c whole
  · cases found : n.fraction with
    | none => simp [found, fractionText] at fraction
    | some ds =>
      rw [found, fractionText, List.mem_cons] at fraction
      rcases fraction with rfl | fraction
      · exact others _ (by simp)
      · exact run _ c fraction
  · cases found : n.power with
    | none => simp [found, powerText] at power
    | some p =>
      rw [found, powerText, PowerOfTen.text, List.cons_append, List.mem_cons,
        List.mem_append] at power
      rcases power with rfl | sign | power
      · exact others _ (by simp)
      · cases signed : p.sign with
        | none => simp [signed] at sign
        | some s =>
          rw [signed] at sign
          cases s <;> simp only [Option.map_some, Option.toList_some, List.mem_singleton,
            Sign.char] at sign <;> subst sign <;> exact others _ (by simp)
      · exact run _ c power

end Numeral

end Calculator
