import MatrixCalc.Proofs.Grid.Elimination

/-!
# Elimination depends on values only

Grids that denote the same matrix are treated alike by Gaussian elimination (`values_ref_congr`,
`values_rref_congr`), and so is the test for an inverse, although it looks at stored entries
(`inverse?_congr`).
-/

namespace MatrixCalc.Grid

variable {rows cols : Nat} {left right : Grid rows cols}

/-! ## Leading entries -/

/-- Grids of one matrix have their leading entries at the same places. -/
theorem isLeading_congr (h : left.values = right.values) (row : Fin rows) (col : Fin cols) :
    left.isLeading row col = right.isLeading row col := by
  rw [Bool.eq_iff_iff, isLeading_iff, isLeading_iff, h]

/-- Grids of one matrix have the same pivot rows. -/
theorem pivotRow?_congr (h : left.values = right.values) (cursor : Nat) (col : Fin cols) :
    left.pivotRow? cursor col = right.pivotRow? cursor col := by
  unfold pivotRow?
  congr 1
  funext row
  rw [isLeading_congr h]

/-- Grids of one matrix have zeros at the same places. -/
theorem isZero_entry_congr (h : left.values = right.values) (row : Fin rows) (col : Fin cols) :
    (left.entry row col).isZero = (right.entry row col).isZero :=
  (Fraction.equiv_iff.2 (toRat_entry_eq h row col)).isZero_eq

/-! ## Row operations -/

/-- Swapping the same rows keeps the values equal. -/
theorem values_swapRows_congr (h : left.values = right.values) (first second : Fin rows) :
    (left.swapRows first second).values = (right.swapRows first second).values := by
  rw [values_swapRows, values_swapRows, h]

/-- Scaling the same row by equal numbers keeps the values equal. -/
theorem values_scaleRow_congr (h : left.values = right.values) (target : Fin rows)
    {factor factor' : Fraction} (hfactor : factor.toRat = factor'.toRat) :
    (left.scaleRow target factor).values = (right.scaleRow target factor').values := by
  rw [values_scaleRow, values_scaleRow, h, hfactor]

/-- Adding the same row to the same row, scaled by equal numbers, keeps the values equal. -/
theorem values_addScaledRow_congr (h : left.values = right.values) (source target : Fin rows)
    {factor factor' : Fraction} (hfactor : factor.toRat = factor'.toRat) :
    (left.addScaledRow source factor target).values =
      (right.addScaledRow source factor' target).values := by
  rw [values_addScaledRow, values_addScaledRow, h, hfactor]

/-- Clearing an entry below a pivot keeps the values equal. -/
theorem values_clearBelow_congr (h : left.values = right.values) (pivot : Fin rows)
    (col : Fin cols) (row : Fin rows) :
    (clearBelow pivot col left row).values = (clearBelow pivot col right row).values := by
  unfold clearBelow
  rw [isZero_entry_congr h]
  split
  · refine values_addScaledRow_congr h _ _ ?_
    rw [Fraction.toRat_neg, Fraction.toRat_neg, toRat_entry_eq h]
  · exact h

/-- Clearing an entry above a leading entry keeps the values equal. -/
theorem values_clearAbove_congr (h : left.values = right.values) (pivot : Fin rows)
    (col : Fin cols) (row : Fin rows) :
    (clearAbove pivot col left row).values = (clearAbove pivot col right row).values := by
  unfold clearAbove
  rw [isZero_entry_congr h]
  split
  · refine values_addScaledRow_congr h _ _ ?_
    simp only [Fraction.toRat_mul, Fraction.toRat_neg, Fraction.toRat_inv, toRat_entry_eq h]
  · exact h

/-- Clearing the column of a leading entry keeps the values equal. -/
theorem values_clearLeading_congr (h : left.values = right.values) (col : Fin cols)
    (row : Fin rows) :
    (clearLeading col left row).values = (clearLeading col right row).values := by
  unfold clearLeading
  rw [isLeading_congr h]
  split
  · refine List.foldl_rel (r := fun left right : Grid rows cols => left.values = right.values)
      ?_ fun above _ _ _ hgrids => values_clearAbove_congr hgrids row col above
    refine values_scaleRow_congr h _ ?_
    rw [Fraction.toRat_inv, Fraction.toRat_inv, toRat_entry_eq h]
  · exact h

/-! ## Echelon forms -/

/-- One column of elimination treats grids of one matrix alike. -/
theorem eliminate_congr {state state' : Elimination rows cols}
    (h : state.grid.values = state'.grid.values ∧ state.cursor = state'.cursor)
    (col : Fin cols) :
    (eliminate state col).grid.values = (eliminate state' col).grid.values ∧
      (eliminate state col).cursor = (eliminate state' col).cursor := by
  obtain ⟨grid, cursor⟩ := state
  obtain ⟨grid', cursor'⟩ := state'
  obtain ⟨hgrid, rfl⟩ := h
  by_cases hcursor : cursor < rows
  · simp only [eliminate, hcursor, dif_pos, pivotRow?_congr hgrid]
    cases grid'.pivotRow? cursor col with
    | none => exact ⟨hgrid, rfl⟩
    | some found =>
      refine ⟨?_, rfl⟩
      have hswapped := values_swapRows_congr hgrid ⟨cursor, hcursor⟩ found
      refine List.foldl_rel (r := fun left right : Grid rows cols => left.values = right.values)
        ?_ fun below _ _ _ hgrids => values_clearBelow_congr hgrids _ col below
      refine values_scaleRow_congr hswapped _ ?_
      rw [Fraction.toRat_inv, Fraction.toRat_inv, toRat_entry_eq hswapped]
  · rw [eliminate, eliminate, dif_neg hcursor, dif_neg hcursor]
    exact ⟨hgrid, rfl⟩

/-- The row echelon form depends on the values only. -/
theorem values_ref_congr (h : left.values = right.values) :
    left.ref.values = right.ref.values := by
  rw [ref_eq_foldl, ref_eq_foldl]
  have hstates := List.foldl_rel (l := List.finRange cols) (a := Elimination.mk left 0)
    (b := Elimination.mk right 0)
    (r := fun state state' : Elimination rows cols =>
      state.grid.values = state'.grid.values ∧ state.cursor = state'.cursor)
    ⟨h, rfl⟩ fun col _ _ _ hgrids => eliminate_congr hgrids col
  exact hstates.1

/-- The reduced row echelon form depends on the values only. -/
theorem values_rref_congr (h : left.values = right.values) :
    left.rref.values = right.rref.values := by
  rw [rref_eq_foldl, rref_eq_foldl]
  refine List.foldl_rel (r := fun left right : Grid rows cols => left.values = right.values)
    (values_ref_congr h) fun col _ _ _ hgrids => ?_
  exact List.foldl_rel (r := fun left right : Grid rows cols => left.values = right.values)
    hgrids fun row _ _ _ hgrids => values_clearLeading_congr hgrids col row

/-! ## The inverse -/

/-- The test of a diagonal entry depends on the values only, in a reduced row echelon form. -/
theorem hasUnitPivot_rref_congr (h : left.values = right.values) (col : Fin cols) :
    left.rref.hasUnitPivot col = right.rref.hasUnitPivot col := by
  have hrref := values_rref_congr h
  -- the test looks at stored terms, which are the lowest ones in these rows
  rw [Bool.eq_iff_iff, hasUnitPivot_rref_iff, hasUnitPivot_rref_iff, hrref]
  simp only [isLeading_congr hrref]

/-- Grids of one matrix have inverses of equal values, or neither has one. -/
theorem inverse?_congr {size : Nat} {left right : Grid size size}
    (h : left.values = right.values) :
    Option.Rel (fun left right : Grid size size => left.values = right.values) left.inverse?
      right.inverse? := by
  have haugmented : (left.augment (identity size)).values =
      (right.augment (identity size)).values :=
    values_augment_congr h rfl
  unfold inverse?
  simp only [hasUnitPivot_rref_congr haugmented]
  split
  · exact .some (values_columns_congr (values_rref_congr haugmented) _ _ _)
  · exact .none

end MatrixCalc.Grid
