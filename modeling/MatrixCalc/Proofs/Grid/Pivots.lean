import MatrixCalc.Proofs.Grid.Elimination

/-!
# Pivots are not zero

Elimination divides by pivots, with `Fraction.inv`, for which zero is its own inverse. The checked
steps below divide with `Fraction.reciprocal`, which refuses zero. They are never refused
(`refChecked_eq`, `rrefChecked_eq`), so that echelon forms divide by no zero.
-/

namespace MatrixCalc

/-- What is not zero has a reciprocal. -/
theorem Fraction.reciprocal_eq_ok {a : Fraction} (h : a.isZero = false) :
    a.reciprocal = .ok a.inv := by
  rw [reciprocal, if_neg (by simp [h])]

namespace Grid

variable {rows cols : Nat}

/-! ## Checked steps -/

/-- `eliminate`, which is refused if the pivot is zero. -/
def eliminateChecked (state : Elimination rows cols) (col : Fin cols) :
    Except Failure (Elimination rows cols) :=
  if h : state.cursor < rows then
    match state.grid.pivotRow? state.cursor col with
    | none => .ok state
    | some found => do
        let top : Fin rows := ⟨state.cursor, h⟩
        let swapped := state.grid.swapRows top found
        let factor ← (swapped.entry top col).reciprocal
        let scaled := swapped.scaleRow top factor
        .ok ⟨(List.finRange rows).foldl (clearBelow top col) scaled, state.cursor + 1⟩
  else .ok state

/-- `ref`, which is refused if a pivot is zero. -/
def refChecked (grid : Grid rows cols) : Except Failure (Grid rows cols) :=
  ((List.finRange cols).foldlM eliminateChecked ⟨grid, 0⟩).map Elimination.grid

/-- `clearAbove`, which is refused if the pivot is zero. -/
def clearAboveChecked (pivot : Fin rows) (col : Fin cols) (grid : Grid rows cols)
    (row : Fin rows) : Except Failure (Grid rows cols) :=
  if row < pivot && !(grid.entry row col).isZero then do
    let factor ← (grid.entry pivot col).reciprocal
    .ok (grid.addScaledRow pivot ((grid.entry row col).neg.mul factor) row)
  else .ok grid

/-- `clearLeading`, which is refused if a pivot is zero. -/
def clearLeadingChecked (col : Fin cols) (grid : Grid rows cols) (row : Fin rows) :
    Except Failure (Grid rows cols) :=
  if grid.isLeading row col then do
    let factor ← (grid.entry row col).reciprocal
    (List.finRange rows).reverse.foldlM (clearAboveChecked row col) (grid.scaleRow row factor)
  else .ok grid

/-- `rref`, which is refused if a pivot is zero. -/
def rrefChecked (grid : Grid rows cols) : Except Failure (Grid rows cols) := do
  let work ← grid.refChecked
  (List.finRange cols).foldlM
    (fun work col => (List.finRange rows).foldlM (clearLeadingChecked col) work) work

/-! ## No step is refused -/

/-- A fold is not refused if no step is, as long as a property holds that every step keeps. -/
theorem foldlM_eq_ok {ι β : Type} {step : β → ι → β} {checked : β → ι → Except Failure β}
    {P : β → Prop} (h : ∀ state item, P state → checked state item = .ok (step state item))
    (hkeep : ∀ state item, P state → P (step state item)) (list : List ι) {start : β}
    (hstart : P start) : list.foldlM checked start = .ok (list.foldl step start) := by
  induction list generalizing start with
  | nil => rfl
  | cons item rest ih =>
    rw [List.foldlM_cons, h start item hstart]
    exact ih (hkeep start item hstart)

/-- A leading entry is not zero. -/
theorem isZero_of_isLeading {grid : Grid rows cols} {row : Fin rows} {col : Fin cols}
    (h : grid.isLeading row col = true) : (grid.entry row col).isZero = false := by
  rw [isLeading, Bool.and_eq_true_iff, Bool.not_eq_true'] at h
  exact h.1

/-- The row that is found for a column has a leading entry there. -/
theorem isLeading_of_pivotRow? {grid : Grid rows cols} {cursor : Nat} {col : Fin cols}
    {found : Fin rows} (h : grid.pivotRow? cursor col = some found) :
    grid.isLeading found col = true := by
  have hfound := List.find?_some h
  exact (Bool.and_eq_true_iff.1 hfound).2

/-- One column of elimination divides by no zero. -/
theorem eliminateChecked_eq (state : Elimination rows cols) (col : Fin cols) :
    eliminateChecked state col = .ok (eliminate state col) := by
  unfold eliminateChecked eliminate
  split
  · cases hfound : state.grid.pivotRow? state.cursor col with
    | none => rfl
    | some found =>
      -- the pivot is the leading entry that was found, moved to the cursor
      have hpivot : ((state.grid.swapRows ⟨state.cursor, ‹_›⟩ found).entry
          ⟨state.cursor, ‹_›⟩ col).isZero = false := by
        rw [entry_swapRows, if_pos rfl]
        exact isZero_of_isLeading (isLeading_of_pivotRow? hfound)
      simp only [Fraction.reciprocal_eq_ok hpivot]
      rfl
  · rfl

/-- Row echelon form divides by no zero. -/
theorem refChecked_eq (grid : Grid rows cols) : grid.refChecked = .ok grid.ref := by
  rw [refChecked, ref_eq_foldl, foldlM_eq_ok (P := fun _ => True)
    (fun state col _ => eliminateChecked_eq state col) (fun _ _ _ => trivial) _ trivial]
  rfl

/-- Clearing above a pivot leaves the pivot alone. -/
theorem entry_clearAbove_pivot (pivot : Fin rows) (col : Fin cols) (grid : Grid rows cols)
    (row : Fin rows) : (clearAbove pivot col grid row).entry pivot col = grid.entry pivot col := by
  unfold clearAbove
  split
  · next h =>
    have hne : pivot ≠ row := (of_decide_eq_true (Bool.and_eq_true_iff.1 h).1).ne'
    rw [entry_addScaledRow, if_neg hne]
  · rfl

/-- Clearing above a pivot that is not zero divides by no zero. -/
theorem clearAboveChecked_eq {pivot : Fin rows} {col : Fin cols} {grid : Grid rows cols}
    (hpivot : (grid.entry pivot col).isZero = false) (row : Fin rows) :
    clearAboveChecked pivot col grid row = .ok (clearAbove pivot col grid row) := by
  unfold clearAboveChecked clearAbove
  rw [Fraction.reciprocal_eq_ok hpivot]
  split <;> rfl

/-- A pivot that is divided by itself is not zero. -/
theorem isZero_entry_scaleRow_inv {grid : Grid rows cols} {row : Fin rows} {col : Fin cols}
    (h : (grid.entry row col).isZero = false) :
    ((grid.scaleRow row (grid.entry row col).inv).entry row col).isZero = false := by
  have hne : (grid.entry row col).toRat ≠ 0 := fun hzero => by
    rw [Fraction.isZero_iff.2 hzero] at h
    cases h
  rw [entry_scaleRow, if_pos rfl, Bool.eq_false_iff, Ne, Fraction.isZero_iff,
    Fraction.toRat_reduce, Fraction.toRat_mul, Fraction.toRat_inv, mul_inv_cancel₀ hne]
  exact one_ne_zero

/-- Clearing the column of a leading entry divides by no zero. -/
theorem clearLeadingChecked_eq (col : Fin cols) (grid : Grid rows cols) (row : Fin rows) :
    clearLeadingChecked col grid row = .ok (clearLeading col grid row) := by
  unfold clearLeadingChecked clearLeading
  split
  · next hleading =>
    have hpivot := isZero_of_isLeading hleading
    rw [Fraction.reciprocal_eq_ok hpivot]
    -- the pivot row stays as it is while the rows above it are cleared
    exact foldlM_eq_ok (P := fun grid : Grid rows cols => (grid.entry row col).isZero = false)
      (fun grid above h => clearAboveChecked_eq h above)
      (fun grid above h => by rwa [entry_clearAbove_pivot]) _ (isZero_entry_scaleRow_inv hpivot)
  · rfl

/-- Reduced row echelon form divides by no zero. -/
theorem rrefChecked_eq (grid : Grid rows cols) : grid.rrefChecked = .ok grid.rref := by
  rw [rrefChecked, refChecked_eq, rref_eq_foldl]
  refine foldlM_eq_ok (P := fun _ => True) (fun work col _ => ?_) (fun _ _ _ => trivial) _ trivial
  exact foldlM_eq_ok (P := fun _ => True) (fun work row _ => clearLeadingChecked_eq col work row)
    (fun _ _ _ => trivial) _ trivial

end Grid

end MatrixCalc
