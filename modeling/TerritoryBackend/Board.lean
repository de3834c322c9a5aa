import TerritoryBackend.Constants
import Mathlib.Data.List.GetD

/-!
# The board

The board is the list of rows the source keeps, indexed as `board[y][x]`.
Claims are written in place; a write outside the board has no effect, but the
callers check their coordinates first.
-/

namespace TerritoryBackend

/-- `board: list[list[int]]`, rows first. -/
abbrev Board := List (List Nat)

namespace Board

/-- `[[0] * BOARD_SIZE for _ in range(BOARD_SIZE)]` -/
def empty : Board := List.replicate boardSize (List.replicate boardSize 0)

/-- `board[y][x]` -/
def cell (board : Board) (x y : Nat) : Nat := (board.getD y []).getD x 0

/-- `board[y][x] = value` -/
def put (board : Board) (x y value : Nat) : Board :=
  board.modify y fun row => row.set x value

def hasEmpty (board : Board) : Bool :=
  (List.range boardSize).any fun y =>
    (List.range boardSize).any fun x => board.cell x y == 0

def WellFormed (board : Board) : Prop :=
  board.length = boardSize ∧ ∀ row ∈ board, row.length = boardSize

theorem empty_wellFormed : empty.WellFormed := by
  simp [empty, WellFormed]

theorem put_wellFormed {board : Board} (wellFormed : board.WellFormed) (x y value : Nat) :
    (board.put x y value).WellFormed := by
  refine ⟨by simpa [put] using wellFormed.1, ?_⟩
  intro row rowMem
  obtain ⟨position, bound, rfl⟩ := List.mem_iff_getElem.mp rowMem
  simp only [put, List.length_modify] at bound
  have rowLength := wellFormed.2 _ (List.getElem_mem bound)
  simp only [put, List.getElem_modify]
  split
  · rw [List.length_set]
    exact rowLength
  · exact rowLength

theorem hasEmpty_iff (board : Board) :
    board.hasEmpty = true ↔
      ∃ y < boardSize, ∃ x < boardSize, board.cell x y = 0 := by
  simp [hasEmpty, List.any_eq_true]

/-- The number of cells that hold a value. -/
def count (board : Board) (value : Nat) : Nat := board.flatten.count value

theorem exists_row {board : Board} (wellFormed : board.WellFormed) {y : Nat}
    (bound : y < boardSize) : ∃ row, board[y]? = some row ∧ row.length = boardSize := by
  have present : y < board.length := by rw [wellFormed.1]; exact bound
  exact ⟨board[y], List.getElem?_eq_getElem present, wellFormed.2 _ (List.getElem_mem present)⟩

theorem cell_eq {board : Board} {y : Nat} {row : List Nat} (present : board[y]? = some row)
    {x : Nat} (bound : x < row.length) : board.cell x y = row[x] := by
  simp [cell, List.getD_eq_getElem?_getD, present, bound]

theorem cell_empty (x y : Nat) : empty.cell x y = 0 := by
  simp only [cell, empty, List.getD_eq_getElem?_getD, List.getElem?_replicate]
  split
  · simp only [Option.getD_some, List.getElem?_replicate]
    split <;> rfl
  · rfl

theorem cell_put {board : Board} (wellFormed : board.WellFormed) {x y : Nat}
    (xBound : x < boardSize) (yBound : y < boardSize) (value column line : Nat) :
    (board.put x y value).cell column line =
      if column = x ∧ line = y then value else board.cell column line := by
  obtain ⟨row, present, rowLength⟩ := exists_row wellFormed yBound
  by_cases sameLine : line = y
  · subst sameLine
    simp only [cell, put, List.getD_eq_getElem?_getD, List.getElem?_modify_eq, present,
      Option.getD_some]
    by_cases sameColumn : x = column
    · subst sameColumn
      simp [rowLength, xBound]
    · simp [sameColumn, Ne.symm sameColumn]
  · simp [cell, put, List.getD_eq_getElem?_getD, Ne.symm sameLine, sameLine]

private theorem count_flatten_modify {rows : List (List Nat)} {position : Nat} {row : List Nat}
    (present : rows[position]? = some row) (change : List Nat → List Nat) (value : Nat) :
    (rows.modify position change).flatten.count value + row.count value =
      rows.flatten.count value + (change row).count value := by
  induction rows generalizing position with
  | nil => simp at present
  | cons first others ih =>
      cases position with
      | zero =>
          cases present
          simp only [List.modify_zero_cons, List.flatten_cons, List.count_append]
          omega
      | succ position =>
          have tail := ih (by simpa using present)
          simp only [List.modify_succ_cons, List.flatten_cons, List.count_append]
          omega

/-- Writing a cell moves it from the count of its old value to that of the new
one. -/
theorem count_put {board : Board} (wellFormed : board.WellFormed) {x y : Nat}
    (xBound : x < boardSize) (yBound : y < boardSize) (written value : Nat) :
    (board.put x y written).count value + (if board.cell x y = value then 1 else 0) =
      board.count value + (if written = value then 1 else 0) := by
  obtain ⟨row, present, rowLength⟩ := exists_row wellFormed yBound
  have bound : x < row.length := by rw [rowLength]; exact xBound
  have modified := count_flatten_modify present (fun row => row.set x written) value
  have counted := List.count_set (a := written) (b := value) bound
  have least : (if row[x] == value then 1 else 0) ≤ row.count value :=
    List.boole_getElem_le_count bound
  rw [cell_eq present bound]
  simp only [count, put, beq_iff_eq] at modified counted least ⊢
  omega

theorem length_flatten {board : Board} (wellFormed : board.WellFormed) :
    board.flatten.length = boardSize * boardSize := by
  have lengths : board.map List.length = board.map fun _ => boardSize :=
    List.map_congr_left wellFormed.2
  rw [List.length_flatten, lengths, List.map_const', List.sum_replicate_nat, wellFormed.1]

theorem filled_add_count {board : Board} (wellFormed : board.WellFormed) :
    board.flatten.countP (fun value => value != 0) + board.count 0 = boardSize * boardSize := by
  have total := List.length_eq_countP_add_countP (fun value => value != 0) (l := board.flatten)
  have blank : board.count 0 =
      board.flatten.countP fun value => decide ¬(value != 0) = true :=
    List.countP_congr fun value _ => by simp
  rw [← length_flatten wellFormed, total, blank]

end Board

end TerritoryBackend
