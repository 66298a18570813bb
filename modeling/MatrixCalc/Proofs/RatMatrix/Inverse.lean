import MatrixCalc.Proofs.Failure
import MatrixCalc.Proofs.Grid.Inverse
import MatrixCalc.Proofs.RatMatrix.Congruence
import MatrixCalc.Proofs.RatMatrix.Numbered
import MatrixCalc.Proofs.RatMatrix.Rows

/-!
# Inverses of matrices

`inverse` gives the inverse of a square matrix exactly if there is one, and there is no other way
for it to fail than a matrix that is not square or not invertible (`inverse_correct`). What it does
with a matrix is said once, by cases on the matrix, in `inverse_cases`.
-/

namespace MatrixCalc.RatMatrix

/-- Some matrix of rational numbers times which the matrix is the identity. -/
def HasInverse (m : RatMatrix) : Prop :=
  ∃ other : Matrix (Fin m.cols) (Fin m.rows) ℚ, m.grid.values * other = 1

/-- The matrices are defined to be multiplied in both orders, and both products are the
identity. -/
def IsInverse (m inverted : RatMatrix) : Prop :=
  (∃ product, m.multiply inverted = .ok product ∧ product.same (identity m.rows) = true) ∧
    ∃ product, inverted.multiply m = .ok product ∧ product.same (identity m.rows) = true

variable {size : Nat} {grid inverted : Grid size size}

/-- A left inverse of a square matrix is an inverse. -/
theorem isInverse_mk (h : inverted.values * grid.values = 1) :
    IsInverse (mk size size grid) (mk size size inverted) := by
  refine ⟨⟨_, multiply_mk grid inverted, ?_⟩, _, multiply_mk inverted grid, ?_⟩
  · refine same_iff.2 (.mk ?_)
    rw [Grid.values_multiply, Grid.values_identity, mul_eq_one_comm.1 h]
  · refine same_iff.2 (.mk ?_)
    rw [Grid.values_multiply, Grid.values_identity, h]

/-- The inverse of a grid is the inverse of the matrix. -/
theorem inverse_mk_of_some (h : grid.inverse? = some inverted) :
    (mk size size grid).inverse = .ok (mk size size inverted) := by
  simp only [inverse, dif_pos, castGrid_rfl, h]

/-- A grid without an inverse makes a singular matrix. -/
theorem inverse_mk_of_none (h : grid.inverse? = none) :
    (mk size size grid).inverse = .error (Failure.because .singular) := by
  simp only [inverse, dif_pos, castGrid_rfl, h]

/-- The inverse of the inverse is the matrix again. -/
theorem inverse_inverse_mk (h : inverted.values * grid.values = 1) :
    ∃ back, (mk size size inverted).inverse = .ok back ∧ back.same (mk size size grid) = true := by
  obtain ⟨back, hback⟩ := Grid.exists_inverse?_eq_some h
  refine ⟨_, inverse_mk_of_some hback, same_iff.2 (.mk ?_)⟩
  exact left_inv_eq_right_inv (Grid.inverse?_eq_some hback).1 h

/-- All that `inverse` does with a matrix. -/
theorem inverse_cases (m : RatMatrix) :
    (m.rows ≠ m.cols ∧ m.inverse = .error (Failure.because .inverseOfNonSquare)) ∨
    (m.rows = m.cols ∧ ¬ m.HasInverse ∧ m.inverse = .error (Failure.because .singular)) ∨
    (m.rows = m.cols ∧ m.HasInverse ∧ ∃ inverted, m.inverse = .ok inverted ∧
      IsInverse m inverted ∧ (∀ entry ∈ inverted.toList, entry.IsReduced) ∧
      ∃ back, inverted.inverse = .ok back ∧ back.same m = true) := by
  obtain ⟨rows, cols, grid⟩ := m
  by_cases hsquare : rows = cols
  · subst hsquare
    refine .inr ?_
    cases hfound : grid.inverse? with
    | none =>
      refine .inl ⟨rfl, fun ⟨other, hother⟩ => ?_, inverse_mk_of_none hfound⟩
      obtain ⟨inverted, hinverted⟩ := Grid.exists_inverse?_eq_some hother
      rw [hfound] at hinverted
      cases hinverted
    | some inverted =>
      obtain ⟨hproduct, hreduced⟩ := Grid.inverse?_eq_some hfound
      refine .inr ⟨rfl, ⟨inverted.values, mul_eq_one_comm.1 hproduct⟩, _,
        inverse_mk_of_some hfound, isInverse_mk hproduct, fun entry hentry => ?_,
        inverse_inverse_mk hproduct⟩
      obtain ⟨row, col, rfl⟩ := Grid.mem_toList_iff.1 hentry
      exact hreduced row col
  · exact .inl ⟨hsquare, by simp only [inverse, hsquare, dif_neg, not_false_iff]⟩

/-- A matrix has an inverse that is found exactly if it is square and invertible. It is one on both
sides, in lowest terms, and its inverse is the matrix again. Otherwise it is reported that the
matrix is not square, or that it is singular. Nothing else is met on the way: no row, column or
entry outside of a matrix, and no division by zero. -/
theorem inverse_correct (m : RatMatrix) :
    ((∃ inverted, m.inverse = .ok inverted) ↔ m.isSquare = true ∧ m.HasInverse) ∧
    (∀ inverted, m.inverse = .ok inverted → IsInverse m inverted ∧
      (∀ entry ∈ inverted.toList, entry.IsReduced) ∧
      ∃ back, inverted.inverse = .ok back ∧ back.same m = true) ∧
    ((∃ failure, m.inverse = .error failure ∧ failure.ReportOf [.dimension]) ↔
      m.isSquare = false) ∧
    ((∃ failure, m.inverse = .error failure ∧ failure.ReportOf [.singular]) ↔
      m.isSquare = true ∧ ¬ m.HasInverse) ∧
    (∀ failure, m.inverse = .error failure → failure.ReportOf [.dimension, .singular]) ∧
    m.inverseByNumber = m.inverse := by
  rw [inverseByNumber_eq, isSquare]
  obtain ⟨hsquare, heq⟩ | ⟨hsquare, hnone, heq⟩ | ⟨hsquare, hinverse, inverted, heq, hspec⟩ :=
    inverse_cases m
  · simp [heq, hsquare, Failure.ReportOf, Failure.because, Cause.numbers, Cause.reportClass]
  · simp [heq, hsquare, hnone, Failure.ReportOf, Failure.because, Cause.numbers,
      Cause.reportClass]
  · simpa [heq, hsquare, hinverse] using hspec

end MatrixCalc.RatMatrix
