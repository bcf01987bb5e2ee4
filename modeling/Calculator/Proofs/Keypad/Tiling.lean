import Calculator.Keypad.Layout
import Mathlib.Algebra.Order.BigOperators.Group.List
import Mathlib.Algebra.Order.Ring.Int

/-!
# Rows of buttons tile their grid

The columns shared out among the buttons of a row come to all columns, and the buttons stand side by
side. So each column of the grid belongs to exactly one button of the row, and no button reaches
beyond the grid. The keypad is made of such rows, so each of its cells belongs to one button.
-/
namespace Calculator

/-! ## Shares -/

section Shares

variable (columns : Int) {buttons : Nat}

@[simp] theorem length_shares (buttons : Nat) : (shares columns buttons).length = buttons := by
  cases buttons with
  | zero => rfl
  | succ buttons => simp [shares]

/-- The columns are shared out completely, however many or few they are. -/
theorem sum_shares (nonzero : buttons ≠ 0) : (shares columns buttons).sum = columns := by
  obtain ⟨others, rfl⟩ := Nat.exists_eq_succ_of_ne_zero nonzero
  have whole := Int.mul_fdiv_add_fmod columns ((others : Int) + 1)
  rw [Int.add_mul, Int.one_mul] at whole
  simp only [shares, List.sum_append, List.sum_replicate, List.sum_singleton, nsmul_eq_mul]
  rw [← Int.add_assoc]
  exact whole

variable {columns}

/-- What is left over for the last button. -/
theorem rest_nonneg (others : Nat) : 0 ≤ columns.fmod ((others : Int) + 1) :=
  Int.fmod_nonneg_of_pos _ (by omega)

/-- No share is greater than the last one. -/
theorem exists_last_share (nonzero : buttons ≠ 0) : ∃ last,
    (shares columns buttons).getLast? = some last ∧
      ∀ span ∈ shares columns buttons, span ≤ last := by
  obtain ⟨others, rfl⟩ := Nat.exists_eq_succ_of_ne_zero nonzero
  refine ⟨_, List.getLast?_concat, fun span member => ?_⟩
  rcases List.mem_append.1 member with member | member
  · rw [List.eq_of_mem_replicate member]
    exact Int.le_add_of_nonneg_right (rest_nonneg others)
  · exact Int.le_of_eq (List.mem_singleton.1 member)

/-- With as many columns as buttons or more, no share is empty. -/
theorem one_le_share (enough : (buttons : Int) ≤ columns) {span : Int}
    (member : span ∈ shares columns buttons) : 1 ≤ span := by
  cases buttons with
  | zero => cases member
  | succ others =>
    have each : 1 ≤ columns.fdiv ((others : Int) + 1) := by
      rw [Int.fdiv_eq_ediv_of_nonneg _ (by omega), Int.le_ediv_iff_mul_le (by omega), Int.one_mul]
      exact enough
    rcases List.mem_append.1 member with member | member
    · rw [List.eq_of_mem_replicate member]
      exact each
    · rw [List.mem_singleton.1 member]
      exact Int.le_trans each (Int.le_add_of_nonneg_right (rest_nonneg others))

end Shares

/-! ## Buttons side by side -/

/-- The column is one of those of the button. -/
def PlacedButton.covers (button : PlacedButton) (column : Int) : Bool :=
  button.column ≤ column && column < button.column + button.columnSpan

/-- Each button starts where the spans of those before it end. -/
theorem placeRow_zip (row : Nat) (start : Int) {keys : List Key} {spans : List Int}
    (number : keys.length = spans.length) :
    placeRow row start (keys.zip spans) = keys.mapIdx fun i key =>
      ⟨key.text, key.role.colours, row, start + (spans.take i).sum, spans.getD i 0⟩ := by
  induction keys generalizing start spans with
  | nil => rfl
  | cons key keys ih =>
    match spans, number with
    | span :: spans, number =>
      have further := ih (start + span) (Nat.succ.inj number)
      simp only [List.zip_cons_cons, placeRow, further, List.mapIdx_cons, List.take_zero, List.sum_nil,
        Int.add_zero, List.getD_cons_zero, List.take_succ_cons, List.sum_cons, List.getD_cons_succ,
        Int.add_assoc]

theorem row_of_mem_placeRow {row : Nat} {start : Int} {cells : List (Key × Int)}
    {button : PlacedButton} (member : button ∈ placeRow row start cells) : button.row = row := by
  induction cells generalizing start with
  | nil => cases member
  | cons cell cells ih =>
    rcases List.mem_cons.1 member with rfl | member
    · rfl
    · exact ih member

theorem columnSpan_placeRow (row : Nat) (start : Int) (cells : List (Key × Int)) :
    (placeRow row start cells).map (·.columnSpan) = cells.map Prod.snd := by
  induction cells generalizing start with
  | nil => rfl
  | cons cell cells ih => exact congrArg (cell.2 :: ·) (ih _)

/-- Buttons side by side cover the columns from the first one up to the sum of their spans, each of
them once. -/
theorem countP_covers_placeRow (row : Nat) (start : Int) {cells : List (Key × Int)}
    (spans : ∀ span ∈ cells.map Prod.snd, 0 ≤ span) (column : Int) :
    (placeRow row start cells).countP (·.covers column) =
      if start ≤ column ∧ column < start + (cells.map Prod.snd).sum then 1 else 0 := by
  induction cells generalizing start with
  | nil => simp [placeRow]
  | cons cell cells ih =>
    obtain ⟨first, others⟩ := List.forall_mem_cons.1 spans
    have further : 0 ≤ (cells.map Prod.snd).sum := List.sum_nonneg others
    rw [placeRow, List.countP_cons, ih (start + cell.2) others, List.map_cons, List.sum_cons]
    simp only [PlacedButton.covers, Bool.and_eq_true, decide_eq_true_eq]
    split_ifs <;> omega

/-! ## Rows -/

/-- The buttons of a row among which the columns of a grid are shared out. -/
def placedRow (row : Nat) (columns : Int) (keys : List Key) : List PlacedButton :=
  placeRow row 0 (keys.zip (shares columns keys.length))

section Rows

variable {row : Nat} {columns : Int} {keys : List Key}

theorem map_snd_zip_shares :
    (keys.zip (shares columns keys.length)).map Prod.snd = shares columns keys.length :=
  List.map_snd_zip (length_shares columns keys.length).le

theorem columnSpan_placedRow :
    (placedRow row columns keys).map (·.columnSpan) = shares columns keys.length :=
  (columnSpan_placeRow row 0 _).trans map_snd_zip_shares

theorem placedRow_eq : placedRow row columns keys = keys.mapIdx fun i key =>
    ⟨key.text, key.role.colours, row, ((shares columns keys.length).take i).sum,
      (shares columns keys.length).getD i 0⟩ := by
  have placed := placeRow_zip row 0 (length_shares columns keys.length).symm
  simp only [Int.zero_add] at placed
  exact placed

variable (nonempty : keys ≠ []) (enough : keys.length ≤ columns)
include nonempty enough

theorem countP_covers_placedRow (column : Int) :
    (placedRow row columns keys).countP (·.covers column) =
      if 0 ≤ column ∧ column < columns then 1 else 0 := by
  have spans : ∀ span ∈ shares columns keys.length, 0 ≤ span := fun span member =>
    Int.le_trans Int.one_nonneg (one_le_share enough member)
  rw [← map_snd_zip_shares] at spans
  rw [placedRow, countP_covers_placeRow row 0 spans, map_snd_zip_shares,
    sum_shares columns (mt List.length_eq_zero_iff.1 nonempty), Int.zero_add]

/-- Each button has a column, and none is wider than the last one. -/
theorem exists_last_placedRow : ∃ last, (placedRow row columns keys).getLast? = some last ∧
    ∀ button ∈ placedRow row columns keys,
      1 ≤ button.columnSpan ∧ button.columnSpan ≤ last.columnSpan := by
  have spans : (placedRow row columns keys).map (·.columnSpan) = shares columns keys.length :=
    columnSpan_placedRow
  obtain ⟨width, ends, greatest⟩ : ∃ last, (shares columns keys.length).getLast? = some last ∧ _ :=
    exists_last_share (mt List.length_eq_zero_iff.1 nonempty)
  rw [← spans, List.getLast?_map] at ends
  obtain ⟨last, found, rfl⟩ := Option.map_eq_some_iff.1 ends
  refine ⟨last, found, fun button member => ?_⟩
  have width : button.columnSpan ∈ shares columns keys.length := spans ▸ List.mem_map_of_mem member
  exact ⟨one_le_share enough width, greatest _ width⟩

end Rows

/-- On a grid with as many columns as a row has buttons, or more, each button of the row stands where
the spans of those before it end; each column of the grid belongs to exactly one of them, and no
other column to any; none is without a column, and none is wider than the last one. Any whole number
of columns is shared out completely among any number of buttons but zero. -/
theorem placedRow_tiles :
    (∀ (row : Nat) (keys : List Key) (columns : Int), keys ≠ [] → keys.length ≤ columns →
      let spans := shares columns keys.length
      let placed := placeRow row 0 (keys.zip spans)
      (placed = keys.mapIdx fun i key =>
        ⟨key.text, key.role.colours, row, (spans.take i).sum, spans.getD i 0⟩) ∧
      (∀ column : Int, placed.countP (·.covers column) =
        if 0 ≤ column ∧ column < columns then 1 else 0) ∧
      ∃ last, placed.getLast? = some last ∧ ∀ button ∈ placed,
        1 ≤ button.columnSpan ∧ button.columnSpan ≤ last.columnSpan) ∧
    ∀ buttons columns : Int, 1 ≤ buttons → ∃ spans, shareColumns buttons columns = .ok spans ∧
      spans.length = buttons ∧ spans.sum = columns := by
  refine ⟨fun row keys columns nonempty enough => ⟨placedRow_eq,
    countP_covers_placedRow nonempty enough, exists_last_placedRow nonempty enough⟩,
    fun buttons columns positive => ?_⟩
  have shared : shareColumns buttons columns = .ok (shares columns buttons.toNat) := by
    rw [shareColumns, if_neg (by omega), if_neg (by omega)]
  exact ⟨_, shared, by rw [length_shares]; omega, sum_shares columns (by omega)⟩

/-- Four buttons on a grid of six columns: the last one is three columns wide. Two columns among three
buttons go to the last one, and so does a column that is missing. -/
theorem placedRow_tiles_four_of_six :
    let keys : List Key := [.plain ['7'] .number, .plain ['8'] .number, .plain ['9'] .number,
      .plain ['='] .equals]
    let placed := placeRow 1 0 (keys.zip (shares 6 keys.length))
    keys ≠ [] ∧ (keys.length : Int) ≤ 6 ∧
      placed.map (fun button => (button.column, button.columnSpan)) = [(0, 1), (1, 1), (2, 1), (3, 3)] ∧
      (∀ column : Int, placed.countP (·.covers column) =
        if 0 ≤ column ∧ column < 6 then 1 else 0) ∧
      (1 : Int) ≤ 3 ∧ shareColumns 3 (-1) = .ok [-1, -1, 1] ∧
      ∃ spans, shareColumns 3 (-1) = .ok spans ∧ (spans.length : Int) = 3 ∧ spans.sum = -1 := by
  obtain ⟨row, total⟩ := placedRow_tiles
  obtain ⟨-, covered, -⟩ := row 1 [.plain ['7'] .number, .plain ['8'] .number, .plain ['9'] .number,
    .plain ['='] .equals] 6 (by decide) (by decide)
  exact ⟨by decide, by decide, by decide, covered, by decide, by decide, total 3 (-1) (by decide)⟩

/-! ## The keypad -/

theorem countP_cell_placedRow (place row : Nat) (columns column : Int) (keys : List Key) :
    (placedRow place columns keys).countP (fun button => button.row == row && button.covers column) =
      if place = row then (placedRow place columns keys).countP (·.covers column) else 0 := by
  split
  · rename_i same
    refine List.countP_congr fun button member => ?_
    rw [row_of_mem_placeRow member, beq_iff_eq.2 same, Bool.true_and]
  · rename_i other
    rw [List.countP_eq_zero]
    intro button member
    rw [row_of_mem_placeRow member, beq_eq_false_iff_ne.2 other, Bool.false_and]
    exact Bool.false_ne_true

/-- Rows one below the other tile the cells from the first row on. -/
theorem countP_cell_placedRows (columns : Int) (rows : List (List Key)) (first row : Nat)
    (column : Int) (fits : ∀ keys ∈ rows, keys ≠ [] ∧ keys.length ≤ columns) :
    ((rows.zipIdx first).flatMap fun (keys, place) => placedRow place columns keys).countP
        (fun button => button.row == row && button.covers column) =
      if first ≤ row ∧ row < first + rows.length ∧ 0 ≤ column ∧ column < columns then 1 else 0 := by
  induction rows generalizing first with
  | nil =>
    rw [if_neg (by rw [List.length_nil]; omega)]
    rfl
  | cons keys rows ih =>
    obtain ⟨⟨nonempty, enough⟩, others⟩ := List.forall_mem_cons.1 fits
    rw [List.zipIdx_cons, List.flatMap_cons, List.countP_append, ih (first + 1) others,
      countP_cell_placedRow, countP_covers_placedRow nonempty enough, List.length_cons]
    split_ifs <;> omega

/-- Each cell of the keypad belongs to exactly one of its buttons, and none reaches beyond it. -/
theorem countP_cell_placedKeypad (row : Nat) (column : Int) :
    placedKeypad.countP (fun button => button.row == row && button.covers column) =
      if row < keypad.length ∧ 0 ≤ column ∧ column < keypadColumns then 1 else 0 := by
  have tiled := countP_cell_placedRows keypadColumns keypad 0 row column (by decide)
  rw [Nat.zero_add] at tiled
  simp only [Nat.zero_le, true_and] at tiled
  exact tiled

end Calculator
