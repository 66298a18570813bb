import MatrixCalc.Proofs.Echelon.Basic
import MatrixCalc.Proofs.Echelon.RowEquivalence

/-!
# Reduced echelon form is unique

Row equivalent matrices in reduced echelon form are equal (`IsReducedEchelon.eq_of_rowEquiv`). The
combinations of the rows of such a matrix lead only where the matrix itself leads
(`IsReducedEchelon.exists_leadsAt`), and are determined by their entries there
(`IsReducedEchelon.vecMul_eq_zero`). So row equivalent forms lead in the same places, which
leaves no choice for their rows.
-/

namespace MatrixCalc.IsReducedEchelon

open Matrix

variable {rows cols : Nat} {matrix : Matrix (Fin rows) (Fin cols) ℚ} {weights : Fin rows → ℚ}
  {row : Fin rows} {col : Fin cols}

/-! ## Combinations of rows -/

/-- In the column of a leading one, a combination of the rows has the weight of its row. -/
theorem vecMul_apply (h : IsReducedEchelon matrix) (hleads : LeadsAt (matrix row) col)
    (weights : Fin rows → ℚ) : (weights ᵥ* matrix) col = weights row := by
  rw [vecMul, dotProduct, Finset.sum_eq_single row, h.one hleads, mul_one]
  · intro other _ hne
    rw [h.cleared row col hleads other hne, mul_zero]
  · exact fun hrow => absurd (Finset.mem_univ row) hrow

/-- A combination of the rows leads where one of the rows does. -/
theorem exists_leadsAt (h : IsReducedEchelon matrix) (hleads : LeadsAt (weights ᵥ* matrix) col) :
    ∃ row, LeadsAt (matrix row) col := by
  -- some row with a weight is not zero in this column, so that it leads here or further left
  have hsum : ∑ row, weights row * matrix row col ≠ 0 := hleads.1
  obtain ⟨row, -, hrow⟩ := Finset.exists_ne_zero_of_sum_ne_zero hsum
  obtain ⟨first, hle, hfirst⟩ := LeadsAt.exists_le (right_ne_zero_of_mul hrow)
  have hweight : (weights ᵥ* matrix) first ≠ 0 := by
    rw [h.vecMul_apply hfirst]
    exact left_ne_zero_of_mul hrow
  have heq : first = col := hle.eq_of_not_lt fun hlt => hweight (hleads.2 first hlt)
  exact ⟨row, heq ▸ hfirst⟩

/-- A combination of the rows that is zero in the columns of the leading ones is zero. -/
theorem vecMul_eq_zero (h : IsReducedEchelon matrix)
    (hzero : ∀ row col, LeadsAt (matrix row) col → (weights ᵥ* matrix) col = 0) :
    weights ᵥ* matrix = 0 := by
  funext col
  by_contra hne
  obtain ⟨first, -, hfirst⟩ := LeadsAt.exists_le hne
  obtain ⟨row, hrow⟩ := h.exists_leadsAt hfirst
  exact hfirst.1 (hzero row first hrow)

/-! ## Row equivalent forms -/

variable {left right : Matrix (Fin rows) (Fin cols) ℚ}

/-- A row of one form leads in a column where some row of the other one does. -/
theorem exists_leadsAt_of_rowEquiv (hleft : IsReducedEchelon left) (h : RowEquiv right left)
    (hleads : LeadsAt (right row) col) : ∃ row', LeadsAt (left row') col := by
  obtain ⟨factor, -, rfl⟩ := h
  rw [mul_apply_eq_vecMul] at hleads
  exact hleft.exists_leadsAt hleads

/-- Row equivalent forms lead in the same places: the first row in which they differed would have a
row above it in one of them that leads further left, and this row is the same in both. -/
theorem row_eq_of_rowEquiv (hleft : IsReducedEchelon left) (hright : IsReducedEchelon right)
    (h : RowEquiv left right) {row row' : Fin rows} {col : Fin cols}
    (hrow : LeadsAt (left row) col) (hrow' : LeadsAt (right row') col) : row = row' := by
  induction col using WellFoundedLT.induction generalizing row row' with
  | ind col ih =>
    rcases lt_trichotomy row row' with hlt | heq | hgt
    · obtain ⟨before, hbefore, hupper⟩ := hright.stairs hlt hrow'
      obtain ⟨other, hother⟩ := hleft.exists_leadsAt_of_rowEquiv h.symm hupper
      obtain rfl := ih before hbefore hother hupper
      exact absurd (hother.unique hrow) hbefore.ne
    · exact heq
    · obtain ⟨before, hbefore, hupper⟩ := hleft.stairs hgt hrow
      obtain ⟨other, hother⟩ := hright.exists_leadsAt_of_rowEquiv h hupper
      obtain rfl := ih before hbefore hupper hother
      exact absurd (hother.unique hrow') hbefore.ne

/-- Row equivalent matrices in reduced echelon form are equal. -/
theorem eq_of_rowEquiv (hleft : IsReducedEchelon left) (hright : IsReducedEchelon right)
    (h : RowEquiv left right) : left = right := by
  funext row
  obtain ⟨factor, -, hfactor⟩ := h.symm
  -- the difference of two rows is a combination of rows that vanishes at all leading ones
  have hdifference : left row - right row = (Pi.single row 1 - factor row) ᵥ* left := by
    rw [sub_vecMul, single_one_vecMul, ← mul_apply_eq_vecMul, ← hfactor]
    rfl
  refine sub_eq_zero.1 (hdifference.trans (hleft.vecMul_eq_zero fun other col hleads => ?_))
  obtain ⟨other', hleads'⟩ := hright.exists_leadsAt_of_rowEquiv h hleads
  obtain rfl := hleft.row_eq_of_rowEquiv hright h hleads hleads'
  rw [← hdifference, Pi.sub_apply]
  by_cases hsame : row = other
  · rw [hsame, hleft.one hleads, hright.one hleads', sub_self]
  · rw [hleft.cleared other col hleads row hsame, hright.cleared other col hleads' row hsame,
      sub_self]

end MatrixCalc.IsReducedEchelon
