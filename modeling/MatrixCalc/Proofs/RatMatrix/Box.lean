import MatrixCalc.Proofs.Fraction.Text
import MatrixCalc.Proofs.Text.Fields
import MatrixCalc.Proofs.Text.Layout
import MatrixCalc.RatMatrix.Text
import Mathlib.Data.List.FinRange

/-!
# The lines of a box

A box is printed as it is drawn (`isPrintableLine_of_mem_boxLines`). `boxRows?` takes the lines
between its corners, without their margins, and the fields of each of these are the entries of a
row in lowest terms (`boxRows?_box`, `fields_rowLine`).
-/

namespace MatrixCalc.RatMatrix

open Text (IsPrintableLine PaddedWord)

/-! ## Lines of rows -/

/-- The text of an entry and the spaces that fill up its column. -/
def paddedCell (m : RatMatrix) (row : Fin m.rows) (col : Fin m.cols) : PaddedWord where
  word := m.cell row col
  padding := Text.spaces (m.columnWidth col - (m.cell row col).length)
  word_ne := Fraction.text_ne_empty _
  word_chars _ hchar := (Fraction.isTextChar_of_mem_text hchar).isBlank_eq_false
  padding_chars char hchar := by
    rw [Text.spaces, String.toList_ofList] at hchar
    rw [List.eq_of_mem_replicate hchar]
    decide

/-- The entries of a row, each at the left of its column. -/
def rowLine (m : RatMatrix) (row : Fin m.rows) : String :=
  (Text.spaces columnGap).intercalate
    ((List.finRange m.cols).map fun col => Text.padRight (m.columnWidth col) (m.cell row col))

/-- A line of a box that shows a row has this row between its margins. -/
theorem bodyLine_rowCells (m : RatMatrix) (row : Fin m.rows) :
    bodyLine m.columnWidths (m.rowCells row) = "│ " ++ m.rowLine row ++ " │" := by
  rw [bodyLine, columnWidths, rowCells, List.zipWith_map, List.zipWith_self]
  rfl

/-- The fields of the line of a row are its entries in lowest terms. -/
theorem fields_rowLine (m : RatMatrix) (row : Fin m.rows) :
    Text.fields (m.rowLine row) = m.rowCells row := by
  have hgap : (Text.spaces columnGap).toList.all Text.isBlank = true := by decide
  have hne : Text.spaces columnGap ≠ "" := by decide
  have hfields := Text.fields_intercalate (List.all_eq_true.1 hgap) hne
    ((List.finRange m.cols).map (m.paddedCell row))
  rw [List.map_map, List.map_map] at hfields
  exact hfields

/-- The line of a row is printable. -/
theorem isPrintableLine_rowLine (m : RatMatrix) (row : Fin m.rows) :
    IsPrintableLine (m.rowLine row) := by
  refine (Text.isPrintableLine_spaces _).intercalate fun line hline => ?_
  obtain ⟨col, -, rfl⟩ := List.mem_map.1 hline
  refine IsPrintableLine.append (fun char hchar => ?_) (Text.isPrintableLine_spaces _)
  have hlow := (Fraction.isTextChar_of_mem_text hchar).toNat_bounds.1
  omega

/-! ## Lines of a box -/

/-- The description of a matrix without entries. -/
theorem box_of_empty {m : RatMatrix} (h : m.rows = 0 ∨ m.cols = 0) :
    m.box = "[empty " ++ m.rows.repr ++ "x" ++ m.cols.repr ++ " matrix]" := by
  have hempty : (decide (m.rows = 0) || decide (m.cols = 0)) = true := by simpa using h
  rw [box, if_pos hempty]
  rfl

/-- The drawing of a matrix with entries. -/
theorem box_of_nonempty {m : RatMatrix} (hrows : 0 < m.rows) (hcols : 0 < m.cols) :
    m.box = "\n".intercalate m.boxLines := by
  simp [box, hrows.ne', hcols.ne']

/-- A box is an upper border, the lines of the rows, and a lower border. -/
theorem boxLines_eq (m : RatMatrix) :
    m.boxLines = ("┌ " ++ Text.spaces (innerWidth m.columnWidths) ++ " ┐") ::
      (List.finRange m.rows).map (fun row => "│ " ++ m.rowLine row ++ " │")
        ++ ["└ " ++ Text.spaces (innerWidth m.columnWidths) ++ " ┘"] := by
  simp only [boxLines, bodyLine_rowCells]

/-- A text between margins without control characters. -/
theorem isPrintableLine_between {left right text : String} (hleft : IsPrintableLine left)
    (h : IsPrintableLine text) (hright : IsPrintableLine right) :
    IsPrintableLine (left ++ text ++ right) :=
  (hleft.append h).append hright

/-- Every line of a box is printable. -/
theorem isPrintableLine_of_mem_boxLines {m : RatMatrix} {line : String} (h : line ∈ m.boxLines) :
    IsPrintableLine line := by
  rw [boxLines_eq, List.cons_append, List.mem_cons, List.mem_append, List.mem_map,
    List.mem_singleton] at h
  rcases h with rfl | ⟨row, -, rfl⟩ | rfl
  · exact isPrintableLine_between (by decide) (Text.isPrintableLine_spaces _) (by decide)
  · exact isPrintableLine_between (by decide) (m.isPrintableLine_rowLine row) (by decide)
  · exact isPrintableLine_between (by decide) (Text.isPrintableLine_spaces _) (by decide)

/-- A line of a box without its margins, if it has them. -/
def withoutMargins? (line : List Char) : Option String := do
  let right ← line.dropPrefix? ['│', ' ']
  let inner ← right.dropSuffix? [' ', '│']
  some (String.ofList inner)

/-- The lines between the corners of a box, without their margins. -/
def boxRows? (drawn : String) : Option (List String) :=
  (drawn.toList.splitOn '\n').tail.dropLast.mapM withoutMargins?

/-- A line is found between its borders. -/
theorem withoutMargins?_eq (line : String) :
    withoutMargins? ("│ " ++ line ++ " │").toList = some line := by
  have hleft : ("│ " ++ line ++ " │").toList.dropPrefix? ['│', ' '] =
      some (line.toList ++ [' ', '│']) :=
    List.dropPrefix?_eq_some_iff.2 ⟨['│', ' '], by simp, by decide⟩
  have hright : (line.toList ++ [' ', '│']).dropSuffix? [' ', '│'] = some line.toList :=
    List.dropSuffix?_eq_some_iff.2 ⟨[' ', '│'], rfl, by decide⟩
  simp only [withoutMargins?, hleft, hright, Option.bind_eq_bind, Option.bind_some,
    String.ofList_toList]

/-- Between the corners of a box stand the lines of its rows. -/
theorem boxRows?_box {m : RatMatrix} (hrows : 0 < m.rows) (hcols : 0 < m.cols) :
    boxRows? m.box = some ((List.finRange m.rows).map m.rowLine) := by
  have hne : m.boxLines ≠ [] := by simp [boxLines]
  rw [boxRows?, box_of_nonempty hrows hcols,
    Text.splitOn_intercalate hne fun _ => isPrintableLine_of_mem_boxLines, boxLines_eq]
  simp only [List.cons_append, List.map_cons, List.tail_cons, List.map_append, List.map_nil,
    List.dropLast_concat, List.map_map, List.mapM_map]
  exact (congrArg (List.mapM · _) (funext fun row => withoutMargins?_eq (m.rowLine row))).trans
    List.mapM_pure

end MatrixCalc.RatMatrix
