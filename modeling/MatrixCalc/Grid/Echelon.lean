import MatrixCalc.Grid.RowOperation

/-!
# Row echelon forms

Gaussian elimination visits the columns from left to right. In each column it looks, at or below
the cursor row, for the first row that has its leading entry there; that row moves to the cursor,
is divided by its leading entry, and clears the rows below it. For the reduced form every leading
entry then clears the rows above it as well.
-/

namespace MatrixCalc.Grid

variable {rows cols : Nat}

/-- Whether an entry is the leading one of its row: it is not zero, and all entries to its left
are. -/
def isLeading (grid : Grid rows cols) (row : Fin rows) (col : Fin cols) : Bool :=
  !(grid.entry row col).isZero &&
    col.val.all fun before h => (grid.entry row ⟨before, by omega⟩).isZero

/-- The first row at or below the cursor with its leading entry in a column. -/
def pivotRow? (grid : Grid rows cols) (cursor : Nat) (col : Fin cols) : Option (Fin rows) :=
  (List.finRange rows).find? fun row => cursor ≤ row && grid.isLeading row col

/-- Clears a column in one row by adding a multiple of the pivot row, whose entry there is one. -/
def clearBelow (pivot : Fin rows) (col : Fin cols) (grid : Grid rows cols) (row : Fin rows) :
    Grid rows cols :=
  if pivot < row && !(grid.entry row col).isZero then
    grid.addScaledRow pivot (grid.entry row col).neg row
  else grid

/-- A grid on its way to row echelon form: the rows above the cursor are done. -/
structure Elimination (rows cols : Nat) where
  grid : Grid rows cols
  cursor : Nat

/-- One column of Gaussian elimination. -/
def eliminate (state : Elimination rows cols) (col : Fin cols) : Elimination rows cols :=
  if h : state.cursor < rows then
    match state.grid.pivotRow? state.cursor col with
    | none => state
    | some found =>
        let top : Fin rows := ⟨state.cursor, h⟩
        let swapped := state.grid.swapRows top found
        let scaled := swapped.scaleRow top (swapped.entry top col).inv
        ⟨(List.finRange rows).foldl (clearBelow top col) scaled, state.cursor + 1⟩
  else state

/-- Row echelon form: each row that is not zero starts with a one, further right than the row
above it. A grid without rows is in this form, however many columns it has. -/
def ref (grid : Grid rows cols) : Grid rows cols :=
  if rows = 0 then grid else ((List.finRange cols).foldl eliminate ⟨grid, 0⟩).grid

theorem eq_of_rows_eq_zero (h : rows = 0) (left right : Grid rows cols) : left = right := by
  subst h
  ext row
  exact row.elim0

theorem ref_eq_foldl (grid : Grid rows cols) :
    grid.ref = ((List.finRange cols).foldl eliminate ⟨grid, 0⟩).grid := by
  by_cases h : rows = 0
  · exact eq_of_rows_eq_zero h _ _
  · simp [ref, h]

/-- Clears a column in one row above a pivot row. -/
def clearAbove (pivot : Fin rows) (col : Fin cols) (grid : Grid rows cols) (row : Fin rows) :
    Grid rows cols :=
  if row < pivot && !(grid.entry row col).isZero then
    grid.addScaledRow pivot ((grid.entry row col).neg.mul (grid.entry pivot col).inv) row
  else grid

/-- Makes a leading entry one and clears its column above it, from the row next above upwards. -/
def clearLeading (col : Fin cols) (grid : Grid rows cols) (row : Fin rows) : Grid rows cols :=
  if grid.isLeading row col then
    (List.finRange rows).reverse.foldl (clearAbove row col)
      (grid.scaleRow row (grid.entry row col).inv)
  else grid

/-- Reduced row echelon form: in addition, each leading one is the only entry of its column that
is not zero. -/
def rref (grid : Grid rows cols) : Grid rows cols :=
  if rows = 0 then grid
  else (List.finRange cols).foldl
    (fun work col => (List.finRange rows).foldl (clearLeading col) work) grid.ref

theorem rref_eq_foldl (grid : Grid rows cols) :
    grid.rref = (List.finRange cols).foldl
      (fun work col => (List.finRange rows).foldl (clearLeading col) work) grid.ref := by
  by_cases h : rows = 0
  · exact eq_of_rows_eq_zero h _ _
  · simp [rref, h]

/-- Whether some row has a leading entry in a column that is stored as one over one. -/
def hasUnitPivot (grid : Grid rows cols) (col : Fin cols) : Bool :=
  (List.finRange rows).any fun row => grid.isLeading row col && grid.entry row col = 1

/-- The inverse of a square grid, by reducing it beside the identity. There is none if a column of
the left half gets no leading one. -/
def inverse? {size : Nat} (grid : Grid size size) : Option (Grid size size) :=
  let reduced := (grid.augment (identity size)).rref
  if (List.finRange size).all fun col => reduced.hasUnitPivot (col.castAdd size) then
    some (reduced.columns size size (Nat.le_refl _))
  else none

end MatrixCalc.Grid
