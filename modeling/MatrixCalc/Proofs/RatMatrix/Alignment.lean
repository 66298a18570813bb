import MatrixCalc.Proofs.Entry.Display
import MatrixCalc.Proofs.Text.Columns
import Mathlib.Algebra.BigOperators.Fin
import Mathlib.Data.List.Fold
import Mathlib.Data.List.MinMax
import Mathlib.Order.Bounds.Basic

/-!
# The columns of a box

A box is a line for each row between two corners, and all of its lines are of one length. In the
line of a row the text of an entry starts at a place that depends on its column only, and there is
nothing else between the margins: `render_aligned`.
-/

namespace MatrixCalc.RatMatrix

open Text (Cell joinCells)

/-! ## Columns -/

/-- A column of a box is as wide as its longest entry. -/
theorem isGreatest_columnWidth {m : RatMatrix} (hrows : 0 < m.rows) (col : Fin m.cols) :
    IsGreatest (Set.range fun row => (m.cell row col).length) (m.columnWidth col) := by
  have hne : (List.finRange m.rows).map (fun row => (m.cell row col).length) ≠ [] := by
    simpa using hrows.ne'
  obtain ⟨hmem, hle⟩ := List.maximum_eq_coe_iff.1 (List.foldr_max_of_ne_nil hne).symm
  rw [← List.foldl_eq_foldr] at hmem hle
  constructor
  · obtain ⟨row, -, hrow⟩ := List.mem_map.1 hmem
    exact ⟨row, hrow⟩
  · rintro _ ⟨row, rfl⟩
    exact hle _ (List.mem_map_of_mem (List.mem_finRange row))

/-- An entry in its column. -/
def alignedCell (m : RatMatrix) (row : Fin m.rows) (col : Fin m.cols) : Cell where
  width := m.columnWidth col
  text := m.cell row col
  length_le := (isGreatest_columnWidth row.pos col).2 ⟨row, rfl⟩

/-- The entries of a row in their columns. -/
def alignedCells (m : RatMatrix) (row : Fin m.rows) : List Cell :=
  (List.finRange m.cols).map (m.alignedCell row)

variable {m : RatMatrix}

/-- The line of a row is made of cells with gaps between them. -/
theorem rowLine_eq_joinCells (row : Fin m.rows) :
    m.rowLine row = joinCells columnGap (m.alignedCells row) := by
  rw [joinCells, alignedCells, List.map_map]
  rfl

/-- The cell of each column stands in its place among the cells of a row. -/
theorem getElem?_alignedCells (row : Fin m.rows) (col : Fin m.cols) :
    (m.alignedCells row)[col.val]? = some (m.alignedCell row col) := by
  simp [alignedCells]

/-- Every cell of a row is that of a column. -/
theorem exists_alignedCell {row : Fin m.rows} {index : Nat} {cell : Cell}
    (h : (m.alignedCells row)[index]? = some cell) :
    ∃ col : Fin m.cols, col.val = index ∧ m.alignedCell row col = cell := by
  obtain ⟨hindex, rfl⟩ := List.getElem?_eq_some_iff.1 h
  rw [alignedCells, List.length_map, List.length_finRange] at hindex
  refine ⟨⟨index, hindex⟩, rfl, ?_⟩
  simp [alignedCells]

/-- The inner width of a box is the length of its cells in a line. -/
theorem length_joinCells (cells : List Cell) :
    (joinCells columnGap cells).length = innerWidth (cells.map Cell.width) := by
  induction cells with
  | nil => rfl
  | cons first more ih =>
    cases more with
    | nil => 
      rw [Text.joinCells_singleton, ← String.length_toList, Text.Cell.length_padded]
      rfl
    | cons second others =>
      rw [← String.length_toList, Text.joinCells_cons_cons, List.length_append,
        Text.length_padded_gap, String.length_toList, ih]
      rfl

/-- The lines of all rows are of one length. -/
theorem length_rowLine (row : Fin m.rows) :
    (m.rowLine row).length = innerWidth m.columnWidths := by
  rw [rowLine_eq_joinCells, length_joinCells, alignedCells, List.map_map]
  rfl

/-- The place in the line of a row where the entry of a column starts. -/
def offset (m : RatMatrix) (col : Fin m.cols) : Nat :=
  2 + ∑ left with left < col, (m.columnWidth left + columnGap)

/-- A column starts behind the border and all columns before it. -/
theorem offset_eq (row : Fin m.rows) (col : Fin m.cols) :
    m.offset col = 2 + Text.cellStart columnGap (m.alignedCells row) col := by
  rw [offset, Text.cellStart, alignedCells, List.map_take, List.map_map, ← List.ofFn_eq_map,
    List.sum_take_ofFn]
  rfl

/-! ## Lines -/

/-- A line shows a row: it has a margin at either end, the text of each entry starts at the place
of its column, and elsewhere there are spaces. -/
structure ShowsRow (m : RatMatrix) (row : Fin m.rows) (chars : List Char) : Prop where
  head : chars.head? = some '│'
  last : chars.getLast? = some '│'
  cell : ∀ col, (m.cell row col).toList <+: chars.drop (m.offset col)
  space : ∀ position char, chars[position]? = some char → 0 < position →
    position + 1 < chars.length →
    (∀ col, ¬ (m.offset col ≤ position ∧ position < m.offset col + (m.cell row col).length)) →
      char = ' '

/-- A text is a line for each row of a matrix between two others, all of one length. -/
structure IsAligned (m : RatMatrix) (drawn : String) : Prop where
  length_lines : (drawn.toList.splitOn '\n').length = m.rows + 2
  length_eq : ∃ length, ∀ line ∈ drawn.toList.splitOn '\n', line.length = length
  row : ∀ row : Fin m.rows, ∃ line, (drawn.toList.splitOn '\n')[row.val + 1]? = some line ∧
    m.ShowsRow row line

/-- A line stands between two borders of two characters. -/
theorem toList_between (text : String) :
    ("│ " ++ text ++ " │").toList = '│' :: ' ' :: (text.toList ++ [' ', '│']) := by
  simp only [String.toList_append, List.append_assoc]
  rfl

/-- What starts somewhere in a line starts two characters later between the borders. -/
theorem isPrefix_drop_between {text : String} {part : List Char} {start : Nat}
    (h : part <+: text.toList.drop start) :
    part <+: ("│ " ++ text ++ " │").toList.drop (2 + start) := by
  rw [toList_between, ← List.drop_drop, List.drop_succ_cons, List.drop_one, List.tail_cons,
    List.drop_append]
  exact h.trans (List.prefix_append _ _)

/-- Between the margins stands a text, with a space on either side of it. -/
theorem between_cases {text : String} {position : Nat} {char : Char}
    (h : ("│ " ++ text ++ " │").toList[position]? = some char) (hfirst : 0 < position)
    (hlast : position + 1 < ("│ " ++ text ++ " │").toList.length) :
    char = ' ' ∨ ∃ inner, position = 2 + inner ∧ text.toList[inner]? = some char := by
  rw [toList_between] at h hlast
  simp only [List.length_cons, List.length_append, List.length_nil] at hlast
  match position with
  | 1 => exact .inl (Option.some.inj h).symm
  | inner + 2 =>
    rw [List.getElem?_cons_succ, List.getElem?_cons_succ] at h
    by_cases hinner : inner < text.toList.length
    · rw [List.getElem?_append_left hinner] at h
      exact .inr ⟨inner, Nat.add_comm _ _, h⟩
    · obtain rfl : inner = text.toList.length := by omega
      rw [List.getElem?_append_right (Nat.le_refl _), Nat.sub_self] at h
      exact .inl (Option.some.inj h).symm

/-- The line of a row, between its borders, shows the row. -/
theorem showsRow_rowLine (row : Fin m.rows) :
    m.ShowsRow row ("│ " ++ m.rowLine row ++ " │").toList where
  head := by rw [toList_between]; rfl
  last := by
    rw [String.toList_append, List.getLast?_append]
    rfl
  cell col := by
    rw [offset_eq row, rowLine_eq_joinCells]
    exact isPrefix_drop_between (Text.isPrefix_drop_joinCells (getElem?_alignedCells row col))
  space position char hchar hfirst hlast hfree := by
    -- a place that no entry covers is beside the margins, or it is free among the cells
    obtain hspace | ⟨inner, rfl, hinner⟩ := between_cases hchar hfirst hlast
    · exact hspace
    · rw [rowLine_eq_joinCells] at hinner
      refine Text.eq_space_of_not_covers hinner ?_
      rintro ⟨index, cell, hcell, hstart, hstop⟩
      obtain ⟨col, rfl, rfl⟩ := exists_alignedCell hcell
      refine hfree col ?_
      rw [offset_eq row]
      have hstop : inner < _ + (m.cell row col).length := hstop
      exact ⟨by omega, by omega⟩

/-- Borders on both sides make a line four characters longer. -/
theorem length_between {left right text : String} (hleft : left.length = 2)
    (hright : right.length = 2) : (left ++ text ++ right).length = text.length + 4 := by
  rw [String.length_append, String.length_append, hleft, hright]
  omega

/-- The corner lines are as long as the lines of the rows. -/
theorem length_of_mem_boxLines {line : String} (h : line ∈ m.boxLines) :
    line.length = innerWidth m.columnWidths + 4 := by
  rw [boxLines_eq, List.cons_append, List.mem_cons, List.mem_append, List.mem_map,
    List.mem_singleton] at h
  rcases h with rfl | ⟨row, -, rfl⟩ | rfl
  · rw [length_between rfl rfl, Text.length_spaces]
  · rw [length_between rfl rfl, length_rowLine]
  · rw [length_between rfl rfl, Text.length_spaces]

/-- The line of each row stands below the upper border, in the order of the rows. -/
theorem getElem?_boxLines (row : Fin m.rows) :
    m.boxLines[row.val + 1]? = some ("│ " ++ m.rowLine row ++ " │") := by
  rw [boxLines_eq, List.cons_append, List.getElem?_cons_succ, List.getElem?_append_left (by simp)]
  simp

/-- The box of a matrix that has entries is aligned. -/
theorem isAligned_box (hrows : 0 < m.rows) (hcols : 0 < m.cols) : m.IsAligned m.box := by
  have hlines : m.box.toList.splitOn '\n' = m.boxLines.map String.toList := by
    rw [box_of_nonempty hrows hcols,
      Text.splitOn_intercalate (by simp [boxLines]) fun _ => isPrintableLine_of_mem_boxLines]
  constructor
  · rw [hlines, List.length_map, boxLines_eq]
    simp
  · refine ⟨innerWidth m.columnWidths + 4, ?_⟩
    rw [hlines, List.forall_mem_map]
    intro line hline
    rw [String.length_toList, length_of_mem_boxLines hline]
  · intro row
    refine ⟨_, ?_, m.showsRow_rowLine row⟩
    rw [hlines, List.getElem?_map, getElem?_boxLines, Option.map_some]

/-- The box of a matrix with entries that keep to the digit limit is drawn in columns, each as wide
as the longest text of its entries in lowest terms. -/
theorem render_aligned (m : RatMatrix) (hrows : 0 < m.rows) (hcols : 0 < m.cols)
    (hfits : m.reduce.fits = true) :
    (∀ col, IsGreatest (Set.range fun row => (m.cell row col).length) (m.columnWidth col)) ∧
      (∀ row col, (m.grid.entry row col).reduce.write = .ok (m.cell row col)) ∧
      ∃ drawn, m.render = .ok drawn ∧ m.IsAligned drawn := by
  refine ⟨isGreatest_columnWidth hrows, fun row col => ?_, m.box, ?_, isAligned_box hrows hcols⟩
  · rw [Fraction.write, if_pos (fits_reduce_entry hfits row col), cell]
  · rw [render, boxFits_of_nonempty hrows hcols, if_pos hfits]

/-- A column with a short entry and a long one, and the column behind it. -/
theorem render_aligned_square :
    let m : RatMatrix := ⟨2, 2, ⟨#v[.ofInt 1, ⟨-2, 4, by decide⟩, ⟨3, 4, by decide⟩, .ofInt 0]⟩⟩
    let drawn := "┌             ┐\n│ 1      -1/2 │\n│ 3/4    0    │\n└             ┘"
    (0 < m.rows ∧ 0 < m.cols ∧ m.reduce.fits = true) ∧ m.render = .ok drawn ∧
      m.IsAligned drawn := by
  intro m drawn
  have hfits : m.reduce.fits = true := by decide +kernel
  obtain ⟨-, -, shown, hshown, haligned⟩ := render_aligned m (by decide) (by decide) hfits
  have hdrawn : m.render = .ok drawn := by decide +kernel
  rw [hdrawn] at hshown
  cases hshown
  exact ⟨⟨by decide, by decide, hfits⟩, hdrawn, haligned⟩

end MatrixCalc.RatMatrix
