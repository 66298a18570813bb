import Mathlib.Data.Fintype.Defs
import Mathlib.Data.Matrix.Mul
import Mathlib.Data.Rat.Defs

/-!
# Echelon forms

A vector leads at a column if its first entry other than zero is there. A matrix is in echelon
form if each row that is not zero leads with a one, further right than every row above it, and the
rows of zeros come last (`IsEchelon`). In reduced echelon form (`IsReducedEchelon`) the leading
ones are moreover alone in their columns.
-/

namespace MatrixCalc

variable {rows cols : Nat}

/-! ## Leading entries -/

/-- The first entry of a vector that is not zero is in this column. -/
def LeadsAt (vector : Fin cols → ℚ) (col : Fin cols) : Prop :=
  vector col ≠ 0 ∧ ∀ before < col, vector before = 0

namespace LeadsAt

variable {vector other : Fin cols → ℚ} {col col' : Fin cols}

/-- A vector has one leading entry at most. -/
theorem unique (h : LeadsAt vector col) (h' : LeadsAt vector col') : col = col' := by
  rcases lt_trichotomy col col' with hlt | heq | hgt
  · exact absurd (h'.2 col hlt) h.1
  · exact heq
  · exact absurd (h.2 col' hgt) h'.1

/-- Vectors that agree up to a column lead there alike. -/
theorem congr (h : ∀ before ≤ col, vector before = other before) :
    LeadsAt vector col ↔ LeadsAt other col := by
  have hbefore : (∀ before < col, vector before = 0) ↔ ∀ before < col, other before = 0 :=
    forall₂_congr fun before hlt => by rw [h before hlt.le]
  rw [LeadsAt, LeadsAt, h col le_rfl, hbefore]

/-- A vector that is not zero in a column leads there or further left. -/
theorem exists_le (h : vector col ≠ 0) : ∃ first ≤ col, LeadsAt vector first := by
  induction col using WellFoundedLT.induction with
  | ind col ih =>
    by_cases hzero : ∀ before < col, vector before = 0
    · exact ⟨col, le_rfl, h, hzero⟩
    · simp only [not_forall] at hzero
      obtain ⟨before, hlt, hne⟩ := hzero
      obtain ⟨first, hle, hfirst⟩ := ih before hlt hne
      exact ⟨first, hle.trans hlt.le, hfirst⟩

end LeadsAt

/-! ## Forms -/

/-- Each row that is not zero leads with a one, further right than the rows above it, none of which
is zero. -/
structure IsEchelon (matrix : Matrix (Fin rows) (Fin cols) ℚ) : Prop where
  one : ∀ {row col}, LeadsAt (matrix row) col → matrix row col = 1
  stairs : ∀ {upper lower col}, upper < lower → LeadsAt (matrix lower) col →
    ∃ before < col, LeadsAt (matrix upper) before

/-- The leading entry of a row, if it has one in this column, is the only one of the column that is
not zero. -/
def IsCleared (matrix : Matrix (Fin rows) (Fin cols) ℚ) (row : Fin rows) (col : Fin cols) : Prop :=
  LeadsAt (matrix row) col → ∀ other ≠ row, matrix other col = 0

/-- In addition, each leading one is alone in its column. -/
structure IsReducedEchelon (matrix : Matrix (Fin rows) (Fin cols) ℚ) : Prop
    extends IsEchelon matrix where
  cleared : ∀ row col, IsCleared matrix row col

variable {matrix : Matrix (Fin rows) (Fin cols) ℚ}

namespace IsEchelon

/-- Two rows do not lead in one column. -/
theorem row_unique (h : IsEchelon matrix) {row row' : Fin rows} {col : Fin cols}
    (hrow : LeadsAt (matrix row) col) (hrow' : LeadsAt (matrix row') col) : row = row' := by
  rcases lt_trichotomy row row' with hlt | heq | hgt
  · obtain ⟨before, hbefore, hleads⟩ := h.stairs hlt hrow'
    exact absurd (hleads.unique hrow) hbefore.ne
  · exact heq
  · obtain ⟨before, hbefore, hleads⟩ := h.stairs hgt hrow
    exact absurd (hleads.unique hrow') hbefore.ne

/-- Below a leading entry there are only zeros. -/
theorem eq_zero_below (h : IsEchelon matrix) {upper lower : Fin rows} {col : Fin cols}
    (hlt : upper < lower) (hleads : LeadsAt (matrix upper) col) : matrix lower col = 0 := by
  by_contra hne
  obtain ⟨first, hle, hfirst⟩ := LeadsAt.exists_le hne
  obtain ⟨before, hbefore, hleads'⟩ := h.stairs hlt hfirst
  exact absurd (hleads'.unique hleads) (hbefore.trans_le hle).ne

end IsEchelon

end MatrixCalc
