import MatrixCalc.RatMatrix.Basic
import MatrixCalc.Text.Padding

/-!
# Matrices as text

A matrix is written on one line as the list of its rows, or drawn as a box in which every column
is as wide as its widest entry. The box shows entries in lowest terms.
-/

namespace MatrixCalc

namespace RatMatrix

/-- Texts between brackets, with commas between them. -/
def bracketed (texts : List String) : String :=
  "[" ++ String.intercalate ", " texts ++ "]"

/-- Whether the entries can be written within the digit limit. -/
def fits (m : RatMatrix) : Bool :=
  m.toList.all Fraction.fits

/-- The rows on one line, with entries as they are stored. -/
def text (m : RatMatrix) : String :=
  bracketed (m.toRows.map fun row => bracketed (row.map Fraction.text))

/-- The rows on one line, unless a number is too long. -/
def write (m : RatMatrix) : Except Failure String :=
  if m.fits then .ok m.text else .error (.fault .tooLongToWrite)

/-- Whether the size can be written within the digit limit. -/
def sizeFits (m : RatMatrix) : Bool :=
  Numeral.fits m.rows && Numeral.fits m.cols

/-- The size and the rows, as a description of the stored form. -/
def describe (m : RatMatrix) : Except Failure String := do
  let shown ← m.write
  if m.sizeFits then .ok (s!"Matrix({m.rows}x{m.cols}, " ++ shown ++ ")")
  else .error (.fault .tooLongToWrite)

/-- The number of spaces between two columns of a box. -/
def columnGap : Nat := 4

/-- The text of an entry of a box. -/
def cell (m : RatMatrix) (row : Fin m.rows) (col : Fin m.cols) : String :=
  (m.grid.entry row col).reduce.text

/-- The texts of the entries of one row. -/
def rowCells (m : RatMatrix) (row : Fin m.rows) : List String :=
  (List.finRange m.cols).map (m.cell row)

/-- The width of a column of a box: the length of its longest entry. -/
def columnWidth (m : RatMatrix) (col : Fin m.cols) : Nat :=
  ((List.finRange m.rows).map fun row => (m.cell row col).length).foldl max 0

/-- The widths of the columns, from left to right. -/
def columnWidths (m : RatMatrix) : List Nat :=
  (List.finRange m.cols).map m.columnWidth

/-- The width of a box with these columns, between its margins. -/
def innerWidth : List Nat → Nat
  | [] => 0
  | [width] => width
  | width :: rest => width + columnGap + innerWidth rest

/-- A line of a box that shows a row, each entry at the left of its column. -/
def bodyLine (widths : List Nat) (cells : List String) : String :=
  "│ " ++ String.intercalate (Text.spaces columnGap) (List.zipWith Text.padRight widths cells)
    ++ " │"

/-- The lines of a box, from top to bottom. -/
def boxLines (m : RatMatrix) : List String :=
  let widths := m.columnWidths
  let border := Text.spaces (innerWidth widths)
  ("┌ " ++ border ++ " ┐")
    :: (List.finRange m.rows).map (fun row => bodyLine widths (m.rowCells row))
    ++ ["└ " ++ border ++ " ┘"]

/-- A matrix drawn as a box. One without entries is described in words. -/
def box (m : RatMatrix) : String :=
  if m.rows = 0 || m.cols = 0 then s!"[empty {m.rows}x{m.cols} matrix]"
  else String.intercalate "\n" m.boxLines

/-- Whether the numbers in a box can be written within the digit limit: the size of a matrix
without entries, and otherwise the entries in lowest terms. -/
def boxFits (m : RatMatrix) : Bool :=
  if m.rows = 0 || m.cols = 0 then m.sizeFits else m.reduce.fits

/-- A matrix drawn as a box, unless a number is too long. -/
def render (m : RatMatrix) : Except Failure String :=
  if m.boxFits then .ok m.box else .error (.fault .tooLongToWrite)

end RatMatrix

end MatrixCalc
