import Mathlib.Algebra.Group.Pi.Units
import Mathlib.LinearAlgebra.Matrix.Swap
import Mathlib.LinearAlgebra.Matrix.Transvection
import Mathlib.LinearAlgebra.Matrix.NonsingularInverse

/-!
# Row equivalence

Matrices are row equivalent if one is an invertible matrix times the other. Swapping two rows,
multiplying a row by a number other than zero, and adding a multiple of one row to another give
row equivalent matrices, since each of these is the product with an elementary matrix.
-/

namespace MatrixCalc

variable {rows cols : Nat}

/-- One matrix is an invertible matrix times the other. -/
def RowEquiv (left right : Matrix (Fin rows) (Fin cols) ℚ) : Prop :=
  ∃ factor : Matrix (Fin rows) (Fin rows) ℚ, IsUnit factor ∧ left = factor * right

namespace RowEquiv

variable {left middle right : Matrix (Fin rows) (Fin cols) ℚ}

/-- A matrix is row equivalent to itself. -/
theorem refl (matrix : Matrix (Fin rows) (Fin cols) ℚ) : RowEquiv matrix matrix :=
  ⟨1, isUnit_one, (Matrix.one_mul matrix).symm⟩

/-- Row equivalence goes both ways, since the factor is invertible. -/
theorem symm (h : RowEquiv left right) : RowEquiv right left := by
  obtain ⟨factor, ⟨unit, rfl⟩, rfl⟩ := h
  refine ⟨unit⁻¹.val, unit⁻¹.isUnit, ?_⟩
  rw [← Matrix.mul_assoc, Units.inv_mul, Matrix.one_mul]

/-- Row equivalence goes through a matrix between, by the product of the factors. -/
theorem trans (h : RowEquiv left middle) (h' : RowEquiv middle right) : RowEquiv left right := by
  obtain ⟨factor, hunit, rfl⟩ := h
  obtain ⟨factor', hunit', rfl⟩ := h'
  exact ⟨factor * factor', hunit.mul hunit', (Matrix.mul_assoc factor factor' right).symm⟩

/-- A product with an invertible matrix. -/
theorem mul_left {factor : Matrix (Fin rows) (Fin rows) ℚ} (hunit : IsUnit factor)
    (matrix : Matrix (Fin rows) (Fin cols) ℚ) : RowEquiv (factor * matrix) matrix :=
  ⟨factor, hunit, rfl⟩

/-- What the one matrix sends to zero, the other one does as well. -/
theorem mulVec_eq_zero {vector : Fin cols → ℚ} (h : RowEquiv left right)
    (hzero : right.mulVec vector = 0) : left.mulVec vector = 0 := by
  obtain ⟨factor, -, rfl⟩ := h
  rw [← Matrix.mulVec_mulVec, hzero, Matrix.mulVec_zero]

/-- Row equivalent matrices have the same solutions. -/
theorem mulVec_eq_zero_iff {vector : Fin cols → ℚ} (h : RowEquiv left right) :
    left.mulVec vector = 0 ↔ right.mulVec vector = 0 :=
  ⟨h.symm.mulVec_eq_zero, h.mulVec_eq_zero⟩

end RowEquiv

/-! ## Elementary matrices -/

variable (matrix : Matrix (Fin rows) (Fin cols) ℚ)

/-- Multiplying by a swap from the left swaps two rows. -/
theorem swap_mul_eq_submatrix (first second : Fin rows) :
    Matrix.swap ℚ first second * matrix = matrix.submatrix (Equiv.swap first second) id :=
  PEquiv.toMatrix_toPEquiv_mul _ matrix

/-- Multiplying by a diagonal matrix with one entry that is not one scales its row. -/
theorem diagonal_mul_eq_updateRow (target : Fin rows) (scalar : ℚ) :
    Matrix.diagonal (Function.update 1 target scalar) * matrix =
      matrix.updateRow target (scalar • matrix target) := by
  ext row col
  rw [Matrix.diagonal_mul, Matrix.updateRow_apply, Function.update_apply]
  split
  · next h => rw [h, Pi.smul_apply, smul_eq_mul]
  · rw [Pi.one_apply, one_mul]

/-- Multiplying by a transvection adds a multiple of a row to another one. -/
theorem transvection_mul_eq_updateRow (target source : Fin rows) (scalar : ℚ) :
    Matrix.transvection target source scalar * matrix =
      matrix.updateRow target (matrix target + scalar • matrix source) := by
  ext row col
  rw [Matrix.updateRow_apply]
  split
  · next h => rw [h, Matrix.transvection_mul_apply_same, Pi.add_apply, Pi.smul_apply, smul_eq_mul]
  · next h => rw [Matrix.transvection_mul_apply_of_ne _ _ _ _ h]

namespace RowEquiv

/-- Two rows are swapped. -/
theorem swapRows (first second : Fin rows) :
    RowEquiv (matrix.submatrix (Equiv.swap first second) id) matrix := by
  rw [← swap_mul_eq_submatrix]
  exact mul_left (.of_mul_eq_one _ (Matrix.swap_mul_self first second)) matrix

/-- A row is multiplied by a number other than zero. -/
theorem scaleRow (target : Fin rows) {scalar : ℚ} (hscalar : scalar ≠ 0) :
    RowEquiv (matrix.updateRow target (scalar • matrix target)) matrix := by
  rw [← diagonal_mul_eq_updateRow]
  refine mul_left (Matrix.isUnit_diagonal.2 (Pi.isUnit_iff.2 fun row => ?_)) matrix
  rw [Function.update_apply]
  split
  · exact hscalar.isUnit
  · exact isUnit_one

/-- A multiple of a row is added to another row. -/
theorem addScaledRow {target source : Fin rows} (hne : target ≠ source) (scalar : ℚ) :
    RowEquiv (matrix.updateRow target (matrix target + scalar • matrix source)) matrix := by
  rw [← transvection_mul_eq_updateRow]
  refine mul_left ((Matrix.isUnit_iff_isUnit_det _).2 ?_) matrix
  rw [Matrix.det_transvection_of_ne _ _ hne]
  exact isUnit_one

end RowEquiv

end MatrixCalc
