import MatrixCalc.Grid.RowOperation
import MatrixCalc.Proofs.Fraction.Value
import Mathlib.Algebra.BigOperators.Fin
import Mathlib.Data.Matrix.ColumnRowPartitioned
import Mathlib.LinearAlgebra.Matrix.RowCol

/-!
# The values of a grid

`Grid.values` is the matrix of rational numbers that a grid denotes. The operations on grids are
those on matrices, whatever the terms the entries are stored in.
-/

namespace MatrixCalc.Grid

variable {rows cols inner : Nat}

/-- The matrix of rational numbers that a grid denotes. -/
def values (grid : Grid rows cols) : Matrix (Fin rows) (Fin cols) ℚ :=
  .of fun row col => (grid.entry row col).toRat

/-- Each entry of the values is the value of the entry. -/
@[simp] theorem values_apply (grid : Grid rows cols) (row : Fin rows) (col : Fin cols) :
    grid.values row col = (grid.entry row col).toRat :=
  rfl

/-- Grids denote one matrix exactly if their entries have pairwise the same values. -/
theorem values_eq_iff {left right : Grid rows cols} :
    left.values = right.values ↔
      ∀ row col, (left.entry row col).toRat = (right.entry row col).toRat :=
  Matrix.ext_iff.symm

/-- The values of two grids agree in every place if they agree. -/
theorem toRat_entry_eq {left right : Grid rows cols} (h : left.values = right.values)
    (row : Fin rows) (col : Fin cols) :
    (left.entry row col).toRat = (right.entry row col).toRat :=
  values_eq_iff.1 h row col

/-! ## Matrix operations -/

/-- The identity grid denotes the identity matrix. -/
@[simp] theorem values_identity (size : Nat) : (identity size).values = 1 := by
  ext row col
  rw [values_apply, entry_identity, Matrix.one_apply]
  split <;> simp

/-- The transpose denotes the transpose. -/
@[simp] theorem values_transpose (grid : Grid rows cols) :
    grid.transpose.values = grid.values.transpose := by
  ext row col
  simp

/-- The sum denotes the sum. -/
@[simp] theorem values_add (left right : Grid rows cols) :
    (left.add right).values = left.values + right.values := by
  ext row col
  simp

/-- A scaled grid denotes the scalar multiple. -/
@[simp] theorem values_scale (factor : Fraction) (grid : Grid rows cols) :
    (grid.scale factor).values = factor.toRat • grid.values := by
  ext row col
  simp [mul_comm]

/-- The opposite denotes the opposite. -/
@[simp] theorem values_negate (grid : Grid rows cols) : grid.negate.values = -grid.values := by
  rw [negate, values_scale, Fraction.toRat_ofInt, Int.cast_neg, Int.cast_one, neg_one_smul]

/-- A sum of products that is added up from left to right. -/
theorem toRat_foldl_add {ι : Type} (summand : ι → Fraction) (list : List ι) (start : Fraction) :
    (list.foldl (fun total item => total.add (summand item)) start).toRat =
      start.toRat + (list.map fun item => (summand item).toRat).sum := by
  induction list generalizing start with
  | nil => simp
  | cons item rest ih =>
    rw [List.foldl_cons, ih, Fraction.toRat_add, List.map_cons, List.sum_cons, add_assoc]

/-- The product denotes the product. -/
@[simp] theorem values_multiply (left : Grid rows inner) (right : Grid inner cols) :
    (left.multiply right).values = left.values * right.values := by
  ext row col
  rw [values_apply, entry_multiply, dot, toRat_foldl_add, Fraction.toRat_zero, zero_add,
    Matrix.mul_apply, Fin.sum_univ_def]
  simp

/-- Bringing all entries to lowest terms keeps the values. -/
@[simp] theorem values_map_reduce (grid : Grid rows cols) :
    (grid.map Fraction.reduce).values = grid.values := by
  ext row col
  simp

/-- In lowest terms, grids are equal if they denote the same matrix. -/
theorem map_reduce_eq_iff {left right : Grid rows cols} :
    left.map Fraction.reduce = right.map Fraction.reduce ↔ left.values = right.values := by
  constructor
  · intro h
    rw [← values_map_reduce left, h, values_map_reduce]
  · intro h
    ext1 row col
    rw [entry_map, entry_map, Fraction.reduce_eq_reduce_iff]
    exact toRat_entry_eq h row col

/-- The columns of the left grid, followed by the columns of the right one. -/
theorem values_augment {leftCols rightCols : Nat} (left : Grid rows leftCols)
    (right : Grid rows rightCols) :
    (left.augment right).values =
      Matrix.reindex (.refl _) finSumFinEquiv (Matrix.fromCols left.values right.values) := by
  ext row col
  refine col.addCases (fun col => ?_) (fun col => ?_)
  · simp
  · simp

/-- What two grids side by side denote depends on what they denote. -/
theorem values_augment_congr {leftCols rightCols : Nat} {left left' : Grid rows leftCols}
    {right right' : Grid rows rightCols} (hleft : left.values = left'.values)
    (hright : right.values = right'.values) :
    (left.augment right).values = (left'.augment right').values := by
  rw [values_augment, values_augment, hleft, hright]

/-- What some columns of a grid denote depends on what the grid denotes. -/
theorem values_columns_congr {left right : Grid rows cols} (h : left.values = right.values)
    (first width : Nat) (within : first + width ≤ cols) :
    (left.columns first width within).values = (right.columns first width within).values := by
  ext row col
  simpa using toRat_entry_eq h row _

/-! ## Row operations -/

/-- Swapping two rows permutes the rows of the values. -/
theorem values_swapRows (grid : Grid rows cols) (first second : Fin rows) :
    (grid.swapRows first second).values = grid.values.submatrix (Equiv.swap first second) id := by
  ext row col
  rw [values_apply, entry_swapRows, Matrix.submatrix_apply, Equiv.swap_apply_def]
  split
  · rfl
  · split <;> rfl

/-- Scaling a row scales this row of the values. -/
theorem values_scaleRow (grid : Grid rows cols) (target : Fin rows) (factor : Fraction) :
    (grid.scaleRow target factor).values =
      grid.values.updateRow target (factor.toRat • grid.values target) := by
  ext row col
  rw [values_apply, entry_scaleRow, Matrix.updateRow_apply]
  split <;> simp [mul_comm]

/-- Adding a multiple of a row does so with the values. -/
theorem values_addScaledRow (grid : Grid rows cols) (source : Fin rows) (factor : Fraction)
    (target : Fin rows) :
    (grid.addScaledRow source factor target).values =
      grid.values.updateRow target (grid.values target + factor.toRat • grid.values source) := by
  ext row col
  rw [values_apply, entry_addScaledRow, Matrix.updateRow_apply]
  split <;> simp [mul_comm]

end MatrixCalc.Grid
