import MatrixCalc.Grid.Echelon
import MatrixCalc.Proofs.Grid.Value

/-!
# Leading entries and lowest terms

Elimination writes every row that it changes in lowest terms (`Refreshes`), and visits every row
that ends up with a leading entry. So in reduced row echelon form these rows are in lowest terms
(`isReduced_entry_rref`), and a leading entry of value one is stored as one over one.
-/

namespace MatrixCalc.Grid

variable {rows cols : Nat}

/-- An entry leads its row exactly if it is not zero and everything before it is. -/
theorem isLeading_iff {grid : Grid rows cols} {row : Fin rows} {col : Fin cols} :
    grid.isLeading row col = true ↔
      grid.values row col ≠ 0 ∧ ∀ before < col, grid.values row before = 0 := by
  have hbefore : (col.val.all fun before h => (grid.entry row ⟨before, by omega⟩).isZero) = true ↔
      ∀ before < col, grid.values row before = 0 := by
    rw [Nat.all_eq_finRange_all, List.all_eq_true]
    constructor
    · intro h before hlt
      exact Fraction.isZero_iff.1 (h ⟨before, hlt⟩ (List.mem_finRange _))
    · intro h before _
      exact Fraction.isZero_iff.2 (h ⟨before, by omega⟩ before.isLt)
  rw [isLeading, Bool.and_eq_true_iff, hbefore, Bool.not_eq_true', Bool.eq_false_iff, Ne,
    Fraction.isZero_iff, values_apply]

/-! ## Lowest terms -/

/-- `Refreshes before after` says that each row is kept as it is stored, or written in lowest
terms. -/
def Refreshes (before after : Grid rows cols) : Prop :=
  ∀ row, (∀ col, after.entry row col = before.entry row col) ∨
    ∀ col, (after.entry row col).IsReduced

namespace Refreshes

variable {before middle after : Grid rows cols}

/-- Nothing is refreshed where nothing is done. -/
theorem refl (grid : Grid rows cols) : Refreshes grid grid :=
  fun _ => .inl fun _ => rfl

/-- What is done in two steps is refreshed if each refreshes what it changes. -/
theorem trans (h : Refreshes before middle) (h' : Refreshes middle after) :
    Refreshes before after := by
  intro row
  rcases h' row with hkept | hreduced
  · rcases h row with hkept' | hreduced
    · exact .inl fun col => (hkept col).trans (hkept' col)
    · exact .inr fun col => by rw [hkept col]; exact hreduced col
  · exact .inr hreduced

/-- A scaled row is stored in lowest terms. -/
theorem scaleRow (grid : Grid rows cols) (target : Fin rows) (factor : Fraction) :
    Refreshes grid (grid.scaleRow target factor) := by
  intro row
  by_cases h : row = target
  · exact .inr fun col => by
      rw [entry_scaleRow, if_pos h]
      exact Fraction.isReduced_reduce _
  · exact .inl fun col => by rw [entry_scaleRow, if_neg h]

/-- A row to which a multiple was added is stored in lowest terms. -/
theorem addScaledRow (grid : Grid rows cols) (source : Fin rows) (factor : Fraction)
    (target : Fin rows) : Refreshes grid (grid.addScaledRow source factor target) := by
  intro row
  by_cases h : row = target
  · exact .inr fun col => by
      rw [entry_addScaledRow, if_pos h]
      exact Fraction.isReduced_reduce _
  · exact .inl fun col => by rw [entry_addScaledRow, if_neg h]

/-- A row that was cleared below a pivot is stored in lowest terms. -/
theorem clearBelow (pivot : Fin rows) (col : Fin cols) (grid : Grid rows cols)
    (row : Fin rows) : Refreshes grid (clearBelow pivot col grid row) := by
  unfold Grid.clearBelow
  split
  · exact addScaledRow _ _ _ _
  · exact refl _

/-- A row that was cleared above a leading entry is stored in lowest terms. -/
theorem clearAbove (pivot : Fin rows) (col : Fin cols) (grid : Grid rows cols)
    (row : Fin rows) : Refreshes grid (clearAbove pivot col grid row) := by
  unfold Grid.clearAbove
  split
  · exact addScaledRow _ _ _ _
  · exact refl _

/-- Steps that each refresh what they change do so together. -/
theorem foldl {ι : Type} {step : Grid rows cols → ι → Grid rows cols}
    (h : ∀ grid item, Refreshes grid (step grid item)) (list : List ι) (grid : Grid rows cols) :
    Refreshes grid (list.foldl step grid) := by
  induction list generalizing grid with
  | nil => exact refl _
  | cons item rest ih => exact (h grid item).trans (ih _)

/-- The rows of which the column of a leading entry was cleared are stored in lowest terms. -/
theorem clearLeading (col : Fin cols) (grid : Grid rows cols) (row : Fin rows) :
    Refreshes grid (clearLeading col grid row) := by
  unfold Grid.clearLeading
  split
  · exact (scaleRow _ _ _).trans (foldl (fun _ _ => clearAbove _ _ _ _) _ _)
  · exact refl _

/-- A row in lowest terms stays so. -/
theorem isReduced (h : Refreshes before after) {row : Fin rows}
    (hbefore : ∀ col, (before.entry row col).IsReduced) (col : Fin cols) :
    (after.entry row col).IsReduced := by
  rcases h row with hkept | hreduced
  · rw [hkept col]
    exact hbefore col
  · exact hreduced col

/-- The row operations of a step leave a row with a leading entry in lowest terms if it was. -/
theorem isReduced_of_isLeading (h : Refreshes before after) {row : Fin rows} {col : Fin cols}
    (hbefore : before.isLeading row col = true → ∀ other, (before.entry row other).IsReduced)
    (hleading : after.isLeading row col = true) (other : Fin cols) :
    (after.entry row other).IsReduced := by
  rcases h row with hkept | hreduced
  · rw [hkept other]
    refine hbefore ?_ other
    rw [isLeading_iff] at hleading ⊢
    simpa [hkept] using hleading
  · exact hreduced other

end Refreshes

/-- Clearing the column of a leading entry leaves its row in lowest terms. -/
theorem isReduced_clearLeading {grid : Grid rows cols} {row : Fin rows} {col : Fin cols}
    (hleading : (clearLeading col grid row).isLeading row col = true) (other : Fin cols) :
    ((clearLeading col grid row).entry row other).IsReduced := by
  unfold clearLeading at hleading ⊢
  split at hleading
  · next h =>
    rw [if_pos h]
    -- the row is scaled, which reduces it, and clearing the column above keeps or reduces it
    have hrefreshes := Refreshes.foldl (Refreshes.clearAbove row col) (List.finRange rows).reverse
      (grid.scaleRow row (grid.entry row col).inv)
    refine hrefreshes.isReduced_of_isLeading (fun _ other => ?_) hleading other
    rw [entry_scaleRow, if_pos rfl]
    exact Fraction.isReduced_reduce _
  · next h => exact absurd hleading h

/-- What a step establishes for its item, and every step keeps, holds in the end for every item. For
both it may need what holds of the state and is kept by every step. -/
theorem foldl_establishes_of_invariant {ι β : Type} {step : β → ι → β} {I : β → Prop}
    {P : ι → β → Prop} (hinvariant : ∀ state item, I state → I (step state item))
    (hstep : ∀ item state, I state → P item (step state item))
    (hkeep : ∀ item other state, I state → P item state → P item (step state other))
    (list : List ι) {start : β} (hstart : I start) :
    I (list.foldl step start) ∧ ∀ item ∈ list, P item (list.foldl step start) := by
  induction list generalizing start with
  | nil => exact ⟨hstart, nofun⟩
  | cons first rest ih =>
    obtain ⟨hend, hrest⟩ := ih (hinvariant start first hstart)
    refine ⟨hend, List.forall_mem_cons.2 ⟨?_, hrest⟩⟩
    refine (List.foldlRecOn (motive := fun state => I state ∧ P first state) rest step
      ⟨hinvariant start first hstart, hstep first start hstart⟩ fun state hstate other _ => ?_).2
    exact ⟨hinvariant state other hstate.1, hkeep first other state hstate.1 hstate.2⟩

/-- What each step establishes for its item and all steps keep holds for all items in the end. -/
theorem foldl_establishes {ι β : Type} {step : β → ι → β} {P : ι → β → Prop}
    (hstep : ∀ item state, P item (step state item))
    (hkeep : ∀ item other state, P item state → P item (step state other)) (list : List ι)
    (start : β) : ∀ item ∈ list, P item (list.foldl step start) :=
  (foldl_establishes_of_invariant (I := fun _ => True) (fun _ _ _ => trivial)
    (fun item state _ => hstep item state) (fun item other state _ => hkeep item other state)
    list trivial).2

/-- In reduced row echelon form, a row with a leading entry is in lowest terms. -/
theorem isReduced_entry_rref {grid : Grid rows cols} {row : Fin rows} {col : Fin cols}
    (h : grid.rref.isLeading row col = true) (other : Fin cols) :
    (grid.rref.entry row other).IsReduced := by
  rw [rref_eq_foldl] at h ⊢
  -- each column is visited once, and within it each row; no later step undoes lowest terms
  refine foldl_establishes (P := fun (col : Fin cols) (work : Grid rows cols) =>
    ∀ row, work.isLeading row col = true → ∀ other, (work.entry row other).IsReduced)
    (fun col work row => ?_) (fun col next work hwork row => ?_) _ _ col (List.mem_finRange col)
    row h other
  · exact foldl_establishes (P := fun (row : Fin rows) (work : Grid rows cols) =>
      work.isLeading row col = true → ∀ other, (work.entry row other).IsReduced)
      (fun _ _ => isReduced_clearLeading)
      (fun _ next work hwork =>
        (Refreshes.clearLeading col work next).isReduced_of_isLeading hwork)
      _ work row (List.mem_finRange row)
  · have hrefreshes := Refreshes.foldl (Refreshes.clearLeading next) (List.finRange rows) work
    exact hrefreshes.isReduced_of_isLeading (hwork row)

/-- A column has a leading entry stored as one over one if it has one of value one. -/
theorem hasUnitPivot_rref_iff {grid : Grid rows cols} {col : Fin cols} :
    grid.rref.hasUnitPivot col = true ↔
      ∃ row, grid.rref.isLeading row col = true ∧ grid.rref.values row col = 1 := by
  simp only [hasUnitPivot, List.any_eq_true, List.mem_finRange, true_and, Bool.and_eq_true_iff,
    decide_eq_true_iff]
  refine exists_congr fun row => and_congr_right fun hleading => ?_
  exact (isReduced_entry_rref hleading col).eq_one_iff

end MatrixCalc.Grid
