import MatrixCalc.RatMatrix.Basic

/-!
# Rows, columns and entries by number

Rows and columns are numbered from one. A number that names no row or column is a fault, and then
nothing is changed. An operation on the rows of a matrix without columns touches no entry, so it
looks at no number. A cut may ask for any number of columns, and asking for more entries than can be
counted is a fault of its own. Apart from that, every matrix is taken to fit into memory.
-/

namespace MatrixCalc.RatMatrix

/-- The fault of a place that the matrix does not have, if the numbers in its wording can be
written. -/
def outside (m : RatMatrix) (row col : Int) : Failure :=
  if [row, col, m.rows, m.cols].all Numeral.fits then .fault (.outside row col m.rows m.cols)
  else .fault .tooLongToWrite

/-- The row and the column with the given numbers. -/
def locate (m : RatMatrix) (row col : Int) : Except Failure (Fin m.rows × Fin m.cols) :=
  if h : (1 ≤ row ∧ row ≤ m.rows) ∧ 1 ≤ col ∧ col ≤ m.cols then
    .ok (⟨(row - 1).toNat, by omega⟩, ⟨(col - 1).toNat, by omega⟩)
  else .error (m.outside row col)

/-- The entry in a row and a column. -/
def get (m : RatMatrix) (row col : Int) : Except Failure Fraction := do
  let place ← m.locate row col
  .ok (m.grid.entry place.1 place.2)

/-- The matrix with one entry replaced. -/
def set (m : RatMatrix) (row col : Int) (value : Fraction) : Except Failure RatMatrix := do
  let place ← m.locate row col
  .ok ⟨m.rows, m.cols, m.grid.set place.1 place.2 value⟩

/-- Whether an entry is the leading one of its row. -/
def isLeading (m : RatMatrix) (row col : Int) : Except Failure Bool := do
  let place ← m.locate row col
  .ok (m.grid.isLeading place.1 place.2)

/-- The row with a number, for an operation that starts at the first column. -/
def locateRow (m : RatMatrix) (row : Int) : Except Failure (Fin m.rows) :=
  if h : 1 ≤ row ∧ row ≤ m.rows then .ok ⟨(row - 1).toNat, by omega⟩
  else .error (m.outside row 1)

/-- The matrix with two rows swapped. A row swapped with itself need not be there. -/
def swapRows (m : RatMatrix) (first second : Int) : Except Failure RatMatrix :=
  if m.cols = 0 || first = second then .ok m
  else do
    let firstRow ← m.locateRow first
    let secondRow ← m.locateRow second
    .ok ⟨m.rows, m.cols, m.grid.swapRows firstRow secondRow⟩

/-- The matrix with one row multiplied by a fraction. -/
def scaleRow (m : RatMatrix) (row : Int) (factor : Fraction) : Except Failure RatMatrix :=
  if m.cols = 0 then .ok m
  else do
    let target ← m.locateRow row
    .ok ⟨m.rows, m.cols, m.grid.scaleRow target factor⟩

/-- The matrix with a multiple of the row `source` added to the row `target`. -/
def addScaledRow (m : RatMatrix) (source : Int) (factor : Fraction) (target : Int) :
    Except Failure RatMatrix :=
  if m.cols = 0 then .ok m
  else do
    let targetRow ← m.locateRow target
    let sourceRow ← m.locateRow source
    .ok ⟨m.rows, m.cols, m.grid.addScaledRow sourceRow factor targetRow⟩

/-- The most entries that can be counted when a matrix is laid out, the greatest signed number of
64 bits. -/
def entryLimit : Nat := 0x7fffffffffffffff

/-- The columns from number `first` to number `last` can be laid out as a matrix. They always can if
they are no more than this matrix has. -/
def HasRoom (m : RatMatrix) (first last : Int) : Prop :=
  last - first + 1 ≤ m.cols ∨ m.rows * (last - first + 1).toNat ≤ entryLimit

instance (m : RatMatrix) (first last : Int) : Decidable (m.HasRoom first last) :=
  inferInstanceAs (Decidable (_ ∨ _))

/-- The columns from number `first` to number `last`. They are laid out before the first entry is
looked up. Without rows there is nothing to look up, and any two numbers do. -/
def columnSlice (m : RatMatrix) (first last : Int) : Except Failure RatMatrix :=
  if ¬ m.HasRoom first last then .error (.fault .tooManyEntries)
  else if _h : last < first ∨ m.rows = 0 then .ok (zeros m.rows (last - first + 1).toNat)
  else if h : 1 ≤ first ∧ last ≤ m.cols then
    .ok ⟨m.rows, (last - first + 1).toNat, m.grid.columns (first - 1).toNat _ (by omega)⟩
  else .error (m.outside 1 (if first < 1 then first else max first (m.cols + 1)))

/-- A position in a list of `length` elements: one below zero counts from the end, and all are
moved into the list. -/
def clampPosition (length : Nat) (position : Int) : Nat :=
  min (if position < 0 then position + length else position).toNat length

/-- The stretch of a list from one position up to another. -/
def stretch {α : Type} (list : List α) (start stop : Int) : List α :=
  let first := clampPosition list.length start
  (list.drop first).take (clampPosition list.length stop - first)

/-- The stretch of entries at which the row with a number is stored. It is the row if there is one
with that number. -/
def row (m : RatMatrix) (number : Int) : List Fraction :=
  stretch m.toList ((number - 1) * m.cols) ((number - 1) * m.cols + m.cols)

end MatrixCalc.RatMatrix
