import MatrixCalc.Proofs.Echelon.Basic
import MatrixCalc.Proofs.Echelon.RowEquivalence
import MatrixCalc.Proofs.Grid.Pivots

/-!
# Clearing a column

Elimination takes multiples of a pivot row, whose entry in some column is one, from the rows below
or above it, so that these are zero in the column. `Clears` says this of matrices, and the loops of
the elimination clear all rows on their side of the pivot (`clears_foldl_clearBelow`,
`clears_foldl_clearAbove`).
-/

namespace MatrixCalc

variable {rows cols : Nat}

/-- From the chosen rows the multiple of the pivot row is taken that makes them zero in a column;
the other rows are kept. -/
structure Clears (chosen : Fin rows → Prop) (pivot : Fin rows) (col : Fin cols)
    (before after : Matrix (Fin rows) (Fin cols) ℚ) : Prop where
  cleared : ∀ row, chosen row → after row = before row - before row col • before pivot
  kept : ∀ row, ¬ chosen row → after row = before row

namespace Clears

variable {chosen chosen' : Fin rows → Prop} {pivot : Fin rows} {col : Fin cols}
  {before middle after : Matrix (Fin rows) (Fin cols) ℚ}

/-- Where no row is chosen nothing is cleared. -/
theorem refl (pivot : Fin rows) (col : Fin cols) (matrix : Matrix (Fin rows) (Fin cols) ℚ) :
    Clears (fun _ => False) pivot col matrix matrix :=
  ⟨nofun, fun _ _ => rfl⟩

/-- Clearing some rows and then others. -/
theorem trans (h : Clears chosen pivot col before middle)
    (h' : Clears chosen' pivot col middle after) (hpivot : ¬ chosen pivot)
    (hapart : ∀ row, chosen row → ¬ chosen' row) :
    Clears (fun row => chosen row ∨ chosen' row) pivot col before after := by
  refine ⟨fun row hrow => ?_, fun row hrow => ?_⟩
  · rcases hrow with hfirst | hsecond
    · rw [h'.kept row (hapart row hfirst), h.cleared row hfirst]
    · rw [h'.cleared row hsecond, h.kept row fun hfirst => hapart row hfirst hsecond,
        h.kept pivot hpivot]
  · obtain ⟨hfirst, hsecond⟩ := not_or.1 hrow
    rw [h'.kept row hsecond, h.kept row hfirst]

/-- The chosen rows may be named in other words. -/
theorem congr (h : Clears chosen pivot col before after)
    (hchosen : ∀ row, chosen row ↔ chosen' row) : Clears chosen' pivot col before after :=
  ⟨fun row hrow => h.cleared row ((hchosen row).2 hrow),
    fun row hrow => h.kept row fun hchosen' => hrow ((hchosen row).1 hchosen')⟩

/-- A row that was cleared is zero in the column if the pivot is one. -/
theorem apply_eq_zero (h : Clears chosen pivot col before after) (hone : before pivot col = 1)
    {row : Fin rows} (hrow : chosen row) : after row col = 0 := by
  rw [h.cleared row hrow, Pi.sub_apply, Pi.smul_apply, hone, smul_eq_mul, mul_one, sub_self]

/-- Nothing changes in a column where the pivot row is zero. -/
theorem apply_eq_of_pivot (h : Clears chosen pivot col before after) {other : Fin cols}
    (hzero : before pivot other = 0) (row : Fin rows) : after row other = before row other := by
  by_cases hrow : chosen row
  · rw [h.cleared row hrow, Pi.sub_apply, Pi.smul_apply, hzero, smul_zero, sub_zero]
  · rw [h.kept row hrow]

end Clears

namespace Grid

open Fraction (toRat_neg toRat_mul toRat_inv)

/-- One row is cleared if it is chosen. -/
theorem clears_ite {grid : Grid rows cols} {pivot row : Fin rows} {col : Fin cols}
    {chosen : Fin rows → Prop} [DecidablePred chosen] {factor : Fraction}
    (hfactor : factor.toRat = -grid.values row col) :
    Clears (fun other => other = row ∧ chosen other) pivot col grid.values
      (if chosen row && !(grid.entry row col).isZero then grid.addScaledRow pivot factor row
        else grid).values := by
  split
  · next h =>
    have hrow : chosen row := of_decide_eq_true (Bool.and_eq_true_iff.1 h).1
    rw [values_addScaledRow, hfactor, neg_smul, ← sub_eq_add_neg]
    refine ⟨?_, fun other hother => Matrix.updateRow_ne fun heq => hother ⟨heq, heq ▸ hrow⟩⟩
    rintro other ⟨rfl, -⟩
    exact Matrix.updateRow_self
  · next h =>
    refine ⟨?_, fun other _ => rfl⟩
    rintro other ⟨rfl, hrow⟩
    -- the row is chosen, so that its entry is zero already
    have hzero : grid.values other col = 0 := by
      rw [values_apply, ← Fraction.isZero_iff]
      simpa [hrow] using h
    rw [hzero, zero_smul, sub_zero]

/-- Clearing the rows of a list one after the other. -/
theorem clears_foldl (step : Grid rows cols → Fin rows → Grid rows cols)
    (chosen : Fin rows → Prop) {pivot : Fin rows} {col : Fin cols} (hpivot : ¬ chosen pivot)
    (hstep : ∀ (grid : Grid rows cols) row, grid.values pivot col = 1 →
      Clears (fun other => other = row ∧ chosen other) pivot col grid.values
        (step grid row).values)
    {list : List (Fin rows)} (hlist : list.Nodup) {grid : Grid rows cols}
    (hone : grid.values pivot col = 1) :
    Clears (fun other => other ∈ list ∧ chosen other) pivot col grid.values
      (list.foldl step grid).values := by
  induction list generalizing grid with
  | nil => exact (Clears.refl pivot col grid.values).congr fun _ => by simp
  | cons row rest ih =>
    have hfirst := hstep grid row hone
    have hkept : (step grid row).values pivot = grid.values pivot :=
      hfirst.kept pivot fun h => hpivot h.2
    have hrest := ih (List.nodup_cons.1 hlist).2 (by rw [hkept, hone])
    refine (hfirst.trans hrest (fun h => hpivot h.2) fun other h h' => ?_).congr fun other => ?_
    · exact (List.nodup_cons.1 hlist).1 (h.1 ▸ h'.1)
    · rw [← or_and_right, List.mem_cons]

variable {grid : Grid rows cols} {pivot : Fin rows} {col : Fin cols}

/-- All rows below the pivot are cleared. -/
theorem clears_foldl_clearBelow (hone : grid.values pivot col = 1) :
    Clears (pivot < ·) pivot col grid.values
      ((List.finRange rows).foldl (clearBelow pivot col) grid).values := by
  have hclears := clears_foldl (clearBelow pivot col) (pivot < ·) (lt_irrefl pivot)
    (fun grid row _ => clears_ite (toRat_neg _)) (List.nodup_finRange rows) hone
  exact hclears.congr fun row => by simp

/-- All rows above the pivot are cleared. -/
theorem clears_foldl_clearAbove (hone : grid.values pivot col = 1) :
    Clears (· < pivot) pivot col grid.values
      ((List.finRange rows).reverse.foldl (clearAbove pivot col) grid).values := by
  have hclears := clears_foldl (clearAbove pivot col) (· < pivot) (lt_irrefl pivot)
    (fun grid row hpivot => clears_ite ?_)
    (List.nodup_reverse.2 (List.nodup_finRange rows)) hone
  · exact hclears.congr fun row => by simp
  · rw [values_apply] at hpivot
    rw [toRat_mul, toRat_neg, toRat_inv, hpivot, inv_one, mul_one, values_apply]

end Grid

end MatrixCalc
