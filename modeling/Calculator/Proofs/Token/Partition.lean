import Calculator.Proofs.Token.Longest

/-!
# Texts as sequences of lexemes

A text that is read is partitioned: between its lexemes stand blanks only, and each lexeme is the
longest one where it stands. A text that is refused is partitioned up to the character at which no
lexeme starts. There is no other way to partition a text, so the tokens of a text are exactly those
of its partition.
-/
namespace Calculator

/-! ## Tilings -/

/-- Only blanks stand in the text from one position to another. -/
structure BlankBetween (text : List Char) (start finish : Nat) : Prop where
  ordered : start ≤ finish
  blank : ∀ i, start ≤ i → i < finish → ∃ c, text[i]? = some c ∧ isBlank c = true

/-- From one position to another the text is blanks and these lexemes at their positions, each of
them the longest one there. -/
inductive Tiles (text : List Char) : Nat → List (Lexeme × Nat) → Nat → Prop
  | blanks {start finish : Nat} (gap : BlankBetween text start finish) : Tiles text start [] finish
  | lexeme {start position finish : Nat} {lexeme : Lexeme} {further : List (Lexeme × Nat)}
      (gap : BlankBetween text start position) (longest : lexeme.Longest (text.drop position))
      (behind : Tiles text (position + lexeme.text.length) further finish) :
      Tiles text start ((lexeme, position) :: further) finish

/-- At the position stands a character that is not blank and at which no lexeme starts. -/
structure Stuck (text : List Char) (position : Nat) (c : Char) : Prop where
  stands : text[position]? = some c
  visible : isBlank c = false
  startsNone : Lexeme.StartsNone (text.drop position)

namespace Tokens

/-- The tokens with these lexemes in front of them. -/
def behind (front : List (Lexeme × Nat)) (tokens : Tokens) : Tokens :=
  front.foldr (fun token tokens => .token token.1 token.2 tokens) tokens

theorem behind_toList (tokens : Tokens) :
    behind tokens.toList (.finish tokens.finishPosition) = tokens := by
  induction tokens with
  | finish position => rfl
  | token lexeme position rest ih =>
    exact congrArg (Tokens.token lexeme position) ih

theorem toList_behind (front : List (Lexeme × Nat)) (position : Nat) :
    (behind front (.finish position)).toList = front := by
  induction front with
  | nil => rfl
  | cons token front ih => exact congrArg (token :: ·) ih

theorem finishPosition_behind (front : List (Lexeme × Nat)) (position : Nat) :
    (behind front (.finish position)).finishPosition = position := by
  induction front with
  | nil => rfl
  | cons token front ih => exact ih

end Tokens

section Tiling

variable {text : List Char} {start finish : Nat} {tokens : List (Lexeme × Nat)}

theorem blankBetween_self (text : List Char) (position : Nat) :
    BlankBetween text position position where
  ordered := Nat.le_refl _
  blank i first last := by omega

/-- A blank in front makes the gap longer. -/
theorem BlankBetween.cons {c : Char} (stands : text[start]? = some c) (blank : isBlank c = true)
    (gap : BlankBetween text (start + 1) finish) : BlankBetween text start finish where
  ordered := Nat.le_of_succ_le gap.ordered
  blank i first last := by
    rcases Nat.eq_or_lt_of_le first with rfl | later
    · exact ⟨c, stands, blank⟩
    · exact gap.blank i later last

theorem Tiles.cons_blank {c : Char} (stands : text[start]? = some c) (blank : isBlank c = true)
    (tiles : Tiles text (start + 1) tokens finish) : Tiles text start tokens finish := by
  cases tiles with
  | blanks gap => exact .blanks (gap.cons stands blank)
  | lexeme gap longest behind => exact .lexeme (gap.cons stands blank) longest behind

/-- Reading passes over a gap. -/
theorem BlankBetween.read_eq (gap : BlankBetween text start finish) :
    Tokens.read 0 start (text.drop start) = Tokens.read 0 finish (text.drop finish) := by
  obtain ⟨ordered, blank⟩ := gap
  induction ordered with
  | refl => rfl
  | @step finish ordered ih =>
    obtain ⟨c, stands, last⟩ := blank finish ordered (Nat.lt_succ_self _)
    rw [ih fun i first before => blank i first (Nat.lt_succ_of_lt before)]
    rw [List.drop_eq_getElem?_toList_append, stands]
    exact Tokens.read_blank last _ _

/-- Reading takes the lexemes of a tiling and goes on where it ends. -/
theorem Tiles.read_eq (tiles : Tiles text start tokens finish) :
    Tokens.read 0 start (text.drop start) =
      (Tokens.read 0 finish (text.drop finish)).map (Tokens.behind tokens) := by
  induction tiles with
  | blanks gap =>
    rw [gap.read_eq]
    cases Tokens.read 0 _ (text.drop _) <;> rfl
  | @lexeme start position finish lexeme further gap longest tiles ih =>
    obtain ⟨rest, same⟩ := longest.starts
    have found := Lexeme.scan?_eq_some_iff.2 longest
    have behind : text.drop (position + lexeme.text.length) = rest := by
      rw [← List.drop_drop, ← same, List.drop_left]
    rw [behind] at ih
    rw [← same] at found
    rw [gap.read_eq, ← same, Tokens.read_lexeme found, ih]
    cases Tokens.read 0 finish (text.drop finish) <;> rfl

/-- A tiling goes on until the text ends or a character starts no lexeme. -/
theorem exists_tiles {text : List Char} {start : Nat} (within : start ≤ text.length) :
    ∃ tokens finish, Tiles text start tokens finish ∧
      (finish = text.length ∨ ∃ c, Stuck text finish c) := by
  -- a lexeme takes several characters, so the induction is on what is left of the text
  induction left : text.length - start using Nat.strongRecOn generalizing start with
  | ind left ih =>
    rcases Nat.eq_or_lt_of_le within with rfl | before
    · exact ⟨[], _, .blanks (blankBetween_self text _), .inl rfl⟩
    · have stands := List.getElem?_eq_getElem before
      cases blank : isBlank text[start] with
      | true =>
        obtain ⟨tokens, finish, tiles, ends⟩ := ih _ (by omega) before rfl
        exact ⟨tokens, finish, tiles.cons_blank stands blank, ends⟩
      | false =>
        cases found : Lexeme.scan? (text.drop start) with
        | none =>
          have stuck : Stuck text start text[start] :=
            ⟨stands, blank, Lexeme.scan?_eq_none_iff.1 found⟩
          exact ⟨[], start, .blanks (blankBetween_self text start), .inr ⟨_, stuck⟩⟩
        | some lexeme =>
          have longest := Lexeme.longest_of_scan? found
          have nonempty := List.length_pos_iff.2 (Lexeme.text_ne_nil_of_scan? found)
          have inside := longest.starts.length_le
          rw [List.length_drop] at inside
          obtain ⟨tokens, finish, tiles, ends⟩ :=
            ih (text.length - (start + lexeme.text.length)) (by omega) (by omega) rfl
          exact ⟨_, finish, .lexeme (blankBetween_self text start) longest tiles, ends⟩

theorem Tiles.increasing (tiles : Tiles text start tokens finish) :
    (∀ token ∈ tokens, start ≤ token.2) ∧ (tokens.map Prod.snd).Pairwise (· < ·) := by
  induction tiles with
  | blanks gap => exact ⟨by simp, .nil⟩
  | @lexeme start position finish lexeme further gap longest tiles ih =>
    obtain ⟨later, increasing⟩ := ih
    have found := Lexeme.scan?_eq_some_iff.2 longest
    have nonempty := List.length_pos_iff.2 (Lexeme.text_ne_nil_of_scan? found)
    have ordered := gap.ordered
    refine ⟨fun token member => ?_, ?_⟩
    · rcases List.mem_cons.1 member with rfl | member
      · exact ordered
      · have behind := later token member
        omega
    · rw [List.map_cons, List.pairwise_cons]
      refine ⟨fun place member => ?_, increasing⟩
      obtain ⟨token, listed, rfl⟩ := List.mem_map.1 member
      have behind := later token listed
      change position < token.2
      omega

theorem Tiles.longest (tiles : Tiles text start tokens finish) :
    ∀ token ∈ tokens, token.1.Longest (text.drop token.2) := by
  induction tiles with
  | blanks gap => simp
  | lexeme gap longest tiles ih =>
    intro token member
    rcases List.mem_cons.1 member with rfl | member
    · exact longest
    · exact ih token member

end Tiling

/-! ## Lexemes with single spaces between them -/

/-- The texts of lexemes, joined by single spaces. -/
def spaced (lexemes : List Lexeme) : List Char :=
  List.intercalate [' '] (lexemes.map Lexeme.text)

theorem Lexeme.scan?_before_space {lexeme : Lexeme} (written : lexeme.IsWritten)
    (rest : List Char) : scan? (lexeme.text ++ ' ' :: rest) = some lexeme := by
  cases lexeme with
  | number n => exact scan?_number n (Numeral.stops_cons rest (by decide) (by decide) (by decide))
  | name word =>
    refine scan?_name written fun c head => ?_
    cases head
    decide
  | operator o => exact scan?_operator o fun _ head => by cases head

/-- With single spaces between them lexemes are read back. -/
theorem spells_spaced {lexemes : List Lexeme} (written : ∀ lexeme ∈ lexemes, lexeme.IsWritten) :
    Spells (spaced lexemes) lexemes := by
  induction lexemes with
  | nil => exact spells_nil
  | cons lexeme further ih =>
    have first := written lexeme List.mem_cons_self
    have others := ih fun other member => written other (List.mem_cons_of_mem _ member)
    cases further with
    | nil =>
      have alone : Lexeme.scan? (lexeme.text ++ []) = some lexeme := by
        rw [List.append_nil]
        exact Lexeme.scan?_text first
      have text : spaced [lexeme] = lexeme.text ++ [] := by simp [spaced]
      rw [text]
      exact spells_nil.lexeme lexeme alone
    | cons next further =>
      have text : spaced (lexeme :: next :: further) =
          lexeme.text ++ ' ' :: spaced (next :: further) := by
        simp [spaced, List.intercalate_cons_cons]
      rw [text]
      exact (others.blank (by decide)).lexeme lexeme (Lexeme.scan?_before_space first _)

/-! ## Partitions -/

/-- Up to a position the text is partitioned into these lexemes at their positions. The positions
increase, each lexeme is what the text has there, and the lexemes can be read again from their texts
with single spaces between them. -/
structure PartitionedUpTo (text : List Char) (tokens : List (Lexeme × Nat)) (finish : Nat) :
    Prop where
  tiles : Tiles text 0 tokens finish
  increasing : (tokens.map Prod.snd).Pairwise (· < ·)
  slices : ∀ token ∈ tokens, (text.drop token.2).take token.1.text.length = token.1.text
  readAgain : ∃ again, Tokens.ofText (spaced (tokens.map Prod.fst)) = .ok again ∧
    again.lexemes = tokens.map Prod.fst

theorem Tiles.partitioned {text : List Char} {tokens : List (Lexeme × Nat)} {finish : Nat}
    (tiles : Tiles text 0 tokens finish) : PartitionedUpTo text tokens finish where
  tiles := tiles
  increasing := tiles.increasing.2
  slices token member := (List.prefix_iff_eq_take.1 (tiles.longest token member).starts).symm
  readAgain := by
    refine spells_spaced (fun lexeme member => ?_) 0
    obtain ⟨token, listed, rfl⟩ := List.mem_map.1 member
    exact (tiles.longest token listed).written

namespace Tokens

variable {text : List Char} {front : List (Lexeme × Nat)}

theorem ofText_of_tiles (tiles : Tiles text 0 front text.length) :
    ofText text = .ok (behind front (.finish text.length)) := by
  have read := tiles.read_eq
  rw [List.drop_length] at read
  exact read

theorem ofText_of_stuck {position : Nat} {c : Char} (tiles : Tiles text 0 front position)
    (stuck : Stuck text position c) : ofText text = .error (.unexpectedCharacter c position) := by
  have none := Lexeme.scan?_eq_none_iff.2 stuck.startsNone
  have here : text.drop position = c :: text.drop (position + 1) := by
    rw [List.drop_eq_getElem?_toList_append, stuck.stands]
    rfl
  have whole := tiles.read_eq
  rw [here] at none whole
  rw [ofText, ← List.drop_zero (l := text), whole, read, stuck.visible, none]
  rfl

/-- The tokens of a text are those of its partition. -/
theorem ofText_eq_ok_iff (text : List Char) (tokens : Tokens) : ofText text = .ok tokens ↔
    Tiles text 0 tokens.toList text.length ∧ tokens.finishPosition = text.length := by
  constructor
  · intro read
    obtain ⟨front, finish, tiles, rfl | ⟨c, stuck⟩⟩ := exists_tiles (Nat.zero_le text.length)
    · rw [ofText_of_tiles tiles] at read
      cases read
      rw [toList_behind]
      exact ⟨tiles, finishPosition_behind front _⟩
    · rw [ofText_of_stuck tiles stuck] at read
      cases read
  · rintro ⟨tiles, ends⟩
    have read := ofText_of_tiles tiles
    rw [← ends, behind_toList] at read
    exact read

/-- A text is refused where its partition cannot go on. -/
theorem ofText_eq_error_iff (text : List Char) (fault : Fault) : ofText text = .error fault ↔
    ∃ c position front, fault = .unexpectedCharacter c position ∧ Tiles text 0 front position ∧
      Stuck text position c := by
  constructor
  · intro refused
    obtain ⟨front, finish, tiles, rfl | ⟨c, stuck⟩⟩ := exists_tiles (Nat.zero_le text.length)
    · rw [ofText_of_tiles tiles] at refused
      cases refused
    · rw [ofText_of_stuck tiles stuck] at refused
      cases refused
      exact ⟨c, finish, front, rfl, tiles, stuck⟩
  · rintro ⟨c, position, front, rfl, tiles, stuck⟩
    exact ofText_of_stuck tiles stuck

/-- A text is read as tokens or refused. It is read as the tokens of its partition, with the end
behind its last character. It is refused at the first character, outside the lexemes before it and
blanks, at which no lexeme starts, and the text before that character is partitioned in the same
way. The partition decides which of the two happens: a text that has one is read as its tokens, and
a text that is partitioned up to such a character is refused there. -/
theorem ofText_partition (text : List Char) :
    ((∃ tokens, ofText text = .ok tokens ∧ PartitionedUpTo text tokens.toList text.length ∧
        tokens.finishPosition = text.length) ∨
      ∃ c position front, ofText text = .error (.unexpectedCharacter c position) ∧
        (Fault.unexpectedCharacter c position).kind = .malformed ∧
        PartitionedUpTo text front position ∧ Stuck text position c) ∧
    (∀ tokens : Tokens, ofText text = .ok tokens ↔
      Tiles text 0 tokens.toList text.length ∧ tokens.finishPosition = text.length) ∧
    ∀ fault, ofText text = .error fault ↔ ∃ c position front,
      fault = .unexpectedCharacter c position ∧ Tiles text 0 front position ∧
        Stuck text position c := by
  refine ⟨?_, ofText_eq_ok_iff text, ofText_eq_error_iff text⟩
  cases outcome : ofText text with
  | ok tokens =>
    obtain ⟨tiles, ends⟩ := (ofText_eq_ok_iff text tokens).1 outcome
    exact .inl ⟨tokens, rfl, tiles.partitioned, ends⟩
  | error fault =>
    obtain ⟨c, position, front, rfl, tiles, stuck⟩ := (ofText_eq_error_iff text fault).1 outcome
    exact .inr ⟨c, position, front, rfl, rfl, tiles.partitioned, stuck⟩

end Tokens

end Calculator
