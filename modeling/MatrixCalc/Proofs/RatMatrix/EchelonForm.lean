import MatrixCalc.Proofs.Grid.EchelonForm
import MatrixCalc.Proofs.RatMatrix.Numbered

/-!
# Echelon forms of matrices

Every matrix has both echelon forms: the programs by row and column number reach them, whatever
the terms the entries are stored in (`echelon_forms`). A form has the size of the matrix and is an
invertible matrix times it. Its rows that are not zero are stored in lowest terms, and so their
leading ones as one over one.

During elimination the rows above the cursor are in lowest terms (`Grid.isReduced_eliminate`),
since each was divided by its leading entry and is never written again.
-/

namespace MatrixCalc

variable {rows cols : Nat}

namespace Grid

/-- How a grid in row echelon form is stored: rows that are not zero come first and in lowest
terms, and each starts with one over one, further right than the rows above it. -/
structure IsStoredEchelon (grid : Grid rows cols) : Prop where
  leading : ∀ {row col}, LeadsAt (grid.values row) col → grid.entry row col = 1
  right : ∀ {upper lower before col}, upper < lower → LeadsAt (grid.values upper) before →
    LeadsAt (grid.values lower) col → before < col
  zeros : ∀ {upper lower}, upper < lower → grid.values upper = 0 → grid.values lower = 0
  reduced : ∀ {row}, grid.values row ≠ 0 → ∀ col, (grid.entry row col).IsReduced

variable {grid : Grid rows cols}

/-- A row that is not zero has a leading entry. -/
theorem exists_leadsAt {row : Fin rows} (h : grid.values row ≠ 0) :
    ∃ col, LeadsAt (grid.values row) col := by
  obtain ⟨col, hne⟩ := Function.ne_iff.1 h
  obtain ⟨first, -, hleads⟩ := LeadsAt.exists_le hne
  exact ⟨first, hleads⟩

/-- A row with a leading entry is not zero. -/
theorem ne_zero_of_leadsAt {row : Fin rows} {col : Fin cols}
    (h : LeadsAt (grid.values row) col) : grid.values row ≠ 0 :=
  Function.ne_iff.2 ⟨col, h.1⟩

/-- In lowest terms, a leading entry of value one is stored as one over one. -/
theorem isStoredEchelon_of_isReduced (h : IsEchelon grid.values)
    (hreduced : ∀ row, grid.values row ≠ 0 → ∀ col, (grid.entry row col).IsReduced) :
    grid.IsStoredEchelon := by
  constructor
  case leading =>
    intro row col hleads
    exact (hreduced row (ne_zero_of_leadsAt hleads) col).eq_one_iff.2 (h.one hleads)
  case right =>
    intro upper lower before col hlt hupper hlower
    obtain ⟨first, hfirst, hleads⟩ := h.stairs hlt hlower
    rwa [hupper.unique hleads]
  case zeros =>
    intro upper lower hlt hzero
    by_contra hne
    obtain ⟨col, hlower⟩ := exists_leadsAt hne
    obtain ⟨first, -, hleads⟩ := h.stairs hlt hlower
    exact ne_zero_of_leadsAt hleads hzero
  case reduced => exact fun {row} => hreduced row

/-- Every column of elimination keeps the rows above the cursor in lowest terms. -/
theorem isReduced_eliminate {state : Elimination rows cols} (col : Fin cols)
    (h : ∀ row : Fin rows, row.val < state.cursor →
      ∀ other, (state.grid.entry row other).IsReduced) :
    ∀ row : Fin rows, row.val < (eliminate state col).cursor →
      ∀ other, ((eliminate state col).grid.entry row other).IsReduced := by
  obtain ⟨heq, -⟩ | ⟨top, found, htop, hle, -, heq⟩ := eliminate_cases state col
  · rwa [heq]
  · rw [heq]
    intro row hlt
    refine (Refreshes.foldl (Refreshes.clearBelow top col) _ _).isReduced fun other => ?_
    by_cases hrow : row = top
    · rw [entry_scaleRow, if_pos hrow]
      exact Fraction.isReduced_reduce _
    · -- a row above the cursor is neither of the two that are swapped
      have hle' : row ≤ top := Fin.le_def.2 (htop ▸ Nat.le_of_lt_succ hlt)
      have habove : row < top := lt_of_le_of_ne hle' hrow
      rw [entry_scaleRow, if_neg hrow, entry_swapRows, if_neg hrow,
        if_neg (habove.trans_le hle).ne]
      exact h row (htop ▸ habove) other

/-- In row echelon form, a row that is not zero is in lowest terms. -/
theorem isReduced_entry_ref {row : Fin rows} (h : grid.ref.values row ≠ 0) (other : Fin cols) :
    (grid.ref.entry row other).IsReduced := by
  rw [ref_eq_foldl] at h ⊢
  obtain ⟨hwithin, hreduced⟩ := @foldl_finRange_induction _ cols eliminate ⟨grid, 0⟩
    (fun width state => IsEchelonWithin width state.cursor state.grid.values ∧
      ∀ row : Fin rows, row.val < state.cursor → ∀ other, (state.grid.entry row other).IsReduced)
    ⟨.start grid.values, nofun⟩
    fun col state h => ⟨isEchelonWithin_eliminate h.1, isReduced_eliminate col h.2⟩
  obtain ⟨col, hleads⟩ := exists_leadsAt h
  exact hreduced row ((hwithin.leads_iff row).2 ⟨col, col.isLt, hleads⟩) other

/-- The row echelon form is stored as one. -/
theorem isStoredEchelon_ref (grid : Grid rows cols) : grid.ref.IsStoredEchelon :=
  isStoredEchelon_of_isReduced grid.isEchelon_ref fun _ => isReduced_entry_ref

/-- The reduced row echelon form is stored as an echelon form. -/
theorem isStoredEchelon_rref (grid : Grid rows cols) : grid.rref.IsStoredEchelon := by
  refine isStoredEchelon_of_isReduced grid.isReducedEchelon_rref.toIsEchelon fun row h other => ?_
  obtain ⟨col, hleads⟩ := exists_leadsAt h
  exact isReduced_entry_rref (isLeading_iff.2 hleads) other

end Grid

/-- A matrix has both echelon forms, and they are reached without a place outside of the matrix
and without a division by zero. They have the size and the solutions of the matrix, since each is
an invertible matrix times it. In the reduced form each leading one is alone in its column. -/
theorem RatMatrix.echelon_forms (m : RatMatrix) :
    (∃ form : Grid m.rows m.cols,
      m.refByNumber = .ok ⟨m.rows, m.cols, form⟩ ∧ m.ref = ⟨m.rows, m.cols, form⟩ ∧
      (∃ factor : Matrix (Fin m.rows) (Fin m.rows) ℚ,
        IsUnit factor ∧ form.values = factor * m.grid.values) ∧
      (∀ vector, form.values.mulVec vector = 0 ↔ m.grid.values.mulVec vector = 0) ∧
      form.IsStoredEchelon) ∧
    ∃ form : Grid m.rows m.cols,
      m.rrefByNumber = .ok ⟨m.rows, m.cols, form⟩ ∧ m.rref = ⟨m.rows, m.cols, form⟩ ∧
      (∃ factor : Matrix (Fin m.rows) (Fin m.rows) ℚ,
        IsUnit factor ∧ form.values = factor * m.grid.values) ∧
      (∀ vector, form.values.mulVec vector = 0 ↔ m.grid.values.mulVec vector = 0) ∧
      form.IsStoredEchelon ∧
      ∀ row col, LeadsAt (form.values row) col → ∀ other ≠ row, form.values other col = 0 := by
  constructor
  · have hequiv := m.grid.rowEquiv_ref
    exact ⟨m.grid.ref, m.refByNumber_eq, rfl, hequiv, fun _ => hequiv.mulVec_eq_zero_iff,
      m.grid.isStoredEchelon_ref⟩
  · have hequiv := m.grid.rowEquiv_rref
    exact ⟨m.grid.rref, m.rrefByNumber_eq, rfl, hequiv, fun _ => hequiv.mulVec_eq_zero_iff,
      m.grid.isStoredEchelon_rref, m.grid.isReducedEchelon_rref.cleared⟩

end MatrixCalc
