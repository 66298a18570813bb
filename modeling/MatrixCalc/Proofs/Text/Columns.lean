import MatrixCalc.Text.Padding
import Mathlib.Algebra.GroupWithZero.Nat
import Mathlib.Data.List.Basic

/-!
# Texts in columns

A line of cells, each filled up to the width of its column, with a gap between any two. A cell
stands at a place that depends on the widths only (`isPrefix_drop_joinCells`), and around the cells
there are spaces (`eq_space_of_not_covers`).
-/

namespace MatrixCalc.Text

/-- A text in a column that is wide enough for it. -/
structure Cell where
  width : Nat
  text : String
  length_le : text.length ≤ width

/-- The text with spaces behind it up to the width of its column. -/
def Cell.padded (cell : Cell) : String :=
  padRight cell.width cell.text

/-- A line of cells with `gap` spaces between any two. -/
def joinCells (gap : Nat) (cells : List Cell) : String :=
  (spaces gap).intercalate (cells.map Cell.padded)

/-- Where the cell with an index starts. -/
def cellStart (gap : Nat) (cells : List Cell) (index : Nat) : Nat :=
  ((cells.take index).map fun cell => cell.width + gap).sum

/-- The text of some cell stands at a place of the line. -/
def Covers (gap : Nat) (cells : List Cell) (position : Nat) : Prop :=
  ∃ index cell, cells[index]? = some cell ∧ cellStart gap cells index ≤ position ∧
    position < cellStart gap cells index + cell.text.length

variable {gap position : Nat} {cells : List Cell} {first second : Cell} {more : List Cell}
  {char : Char}

/-! ## Spaces -/

/-- There is nothing but spaces among spaces. -/
theorem eq_space_of_spaces {count : Nat} (h : (spaces count).toList[position]? = some char) :
    char = ' ' := by
  rw [spaces, String.toList_ofList] at h
  exact List.eq_of_mem_replicate (List.mem_of_getElem? h)

/-- A padded cell is its text and the spaces behind it. -/
theorem Cell.toList_padded (cell : Cell) : cell.padded.toList =
    cell.text.toList ++ (spaces (cell.width - cell.text.length)).toList := by
  rw [padded, padRight, String.toList_append]

/-- A padded cell is as long as its column is wide. -/
@[simp] theorem Cell.length_padded (cell : Cell) : cell.padded.toList.length = cell.width := by
  rw [padded, String.length_toList, length_padRight, Nat.max_eq_left cell.length_le]

/-- Behind its text a column is filled up with spaces. -/
theorem Cell.eq_space_of_padded {cell : Cell} (h : cell.padded.toList[position]? = some char)
    (htext : cell.text.length ≤ position) : char = ' ' := by
  rw [← String.length_toList] at htext
  rw [cell.toList_padded, List.getElem?_append_right htext] at h
  exact eq_space_of_spaces h

/-! ## The first cell and the others -/

/-- One cell alone has no gap. -/
theorem joinCells_singleton (cell : Cell) : joinCells gap [cell] = cell.padded := by
  rw [joinCells, List.map_singleton, String.intercalate_singleton]

/-- Between a cell and the next one there is a gap. -/
theorem joinCells_cons_cons : (joinCells gap (first :: second :: more)).toList =
    (first.padded.toList ++ (spaces gap).toList) ++ (joinCells gap (second :: more)).toList := by
  simp only [joinCells, List.map_cons, String.intercalate_cons_cons, String.toList_append]

/-- A cell takes up the width of its column and a gap. -/
theorem length_padded_gap (cell : Cell) :
    (cell.padded.toList ++ (spaces gap).toList).length = cell.width + gap := by
  rw [List.length_append, Cell.length_padded, String.length_toList, length_spaces]

/-- A line starts with its first cell. -/
theorem isPrefix_joinCells : first.padded.toList <+: (joinCells gap (first :: more)).toList := by
  cases more with
  | nil =>
    simp only [joinCells_singleton, List.prefix_rfl]
  | cons second others =>
    rw [joinCells_cons_cons, List.append_assoc]
    exact List.prefix_append _ _

/-- A cell starts behind the first cell and its gap, and the cells between. -/
theorem cellStart_succ (index : Nat) :
    cellStart gap (first :: more) (index + 1) = first.width + gap + cellStart gap more index := by
  simp [cellStart]

/-- What stands in a line behind the first column and the gap. -/
theorem Covers.cons (first : Cell) (h : Covers gap more position) :
    Covers gap (first :: more) (first.width + gap + position) := by
  obtain ⟨index, cell, hcell, hstart, hstop⟩ := h
  refine ⟨index + 1, cell, hcell, ?_, ?_⟩ <;> rw [cellStart_succ] <;> omega

/-- The text of the first cell covers the places from the start. -/
theorem covers_first (h : position < first.text.length) : Covers gap (first :: more) position :=
  ⟨0, first, rfl, Nat.zero_le position, by rwa [cellStart, List.take_zero, List.map_nil,
    List.sum_nil, Nat.zero_add]⟩

/-! ## Places of a line -/

/-- The text of a cell starts where the columns before it end. -/
theorem isPrefix_drop_joinCells {index : Nat} {cell : Cell} (h : cells[index]? = some cell) :
    cell.text.toList <+: (joinCells gap cells).toList.drop (cellStart gap cells index) := by
  induction cells generalizing index with
  | nil => cases h
  | cons first more ih =>
    cases index with
    | zero =>
      obtain rfl : first = cell := Option.some.inj h
      have htext : first.text.toList <+: first.padded.toList := by
        rw [Cell.toList_padded]
        exact List.prefix_append _ _
      exact htext.trans isPrefix_joinCells
    | succ index =>
      cases more with
      | nil => cases h
      | cons second others =>
        rw [joinCells_cons_cons, cellStart_succ, ← length_padded_gap, ← List.drop_drop,
          List.drop_left]
        exact ih h

/-- Where there is no cell there is a space. -/
theorem eq_space_of_not_covers (h : (joinCells gap cells).toList[position]? = some char)
    (hfree : ¬ Covers gap cells position) : char = ' ' := by
  induction cells generalizing position with
  | nil => cases h
  | cons first more ih =>
    have htext : first.text.length ≤ position :=
      Nat.le_of_not_lt fun hlt => hfree (covers_first hlt)
    cases more with
    | nil =>
      rw [joinCells_singleton] at h
      exact Cell.eq_space_of_padded h htext
    | cons second others =>
      rw [joinCells_cons_cons] at h
      -- behind the first column and the gap it is the line of the other cells that decides
      by_cases hlater : first.width + gap ≤ position
      · rw [List.getElem?_append_right (by rwa [length_padded_gap]), length_padded_gap] at h
        refine ih h fun hcovers => hfree ?_
        have hcons := hcovers.cons first
        rwa [Nat.add_sub_cancel' hlater] at hcons
      · rw [List.getElem?_append_left (by rw [length_padded_gap]; omega)] at h
        by_cases hcolumn : position < first.width
        · rw [List.getElem?_append_left (by rwa [Cell.length_padded])] at h
          exact Cell.eq_space_of_padded h htext
        · rw [List.getElem?_append_right (by rw [Cell.length_padded]; omega)] at h
          exact eq_space_of_spaces h

end MatrixCalc.Text
