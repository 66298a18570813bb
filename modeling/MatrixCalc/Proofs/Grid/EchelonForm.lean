import MatrixCalc.Proofs.Grid.Clearing

/-!
# Elimination reaches echelon form

`ref` gives a row equivalent grid in echelon form (`rowEquiv_ref`, `isEchelon_ref`), and `rref` one
in reduced echelon form (`rowEquiv_rref`, `isReducedEchelon_rref`).

`IsEchelonWithin` is the invariant of the loop over the columns: the rows above the cursor lead in
the columns that were visited, as in echelon form, and the other rows are zero there. Afterwards
each leading one clears its column above it, which moves no leading entry and spoils no column
that was cleared (`IsEchelon.of_clears`, `IsCleared.of_clears`).
-/

namespace MatrixCalc

variable {rows cols : Nat}

/-! ## The invariant of elimination -/

/-- Up to the column `width` the rows above the cursor are in echelon form, and all others are zero.
-/
structure IsEchelonWithin (width cursor : Nat) (matrix : Matrix (Fin rows) (Fin cols) ℚ) :
    Prop where
  one : ∀ {row col}, col.val < width → LeadsAt (matrix row) col → matrix row col = 1
  stairs : ∀ {upper lower col}, col.val < width → upper < lower → LeadsAt (matrix lower) col →
    ∃ before < col, LeadsAt (matrix upper) before
  leads_iff : ∀ row : Fin rows, row.val < cursor ↔
    ∃ col : Fin cols, col.val < width ∧ LeadsAt (matrix row) col

namespace IsEchelonWithin

variable {width cursor : Nat} {matrix after : Matrix (Fin rows) (Fin cols) ℚ}

/-- Before any column is done, there is nothing to show. -/
theorem start (matrix : Matrix (Fin rows) (Fin cols) ℚ) : IsEchelonWithin 0 0 matrix :=
  ⟨nofun, nofun, fun row => by simp⟩

/-- When all columns were visited, the whole matrix is in echelon form. -/
theorem isEchelon (h : IsEchelonWithin cols cursor matrix) : IsEchelon matrix :=
  ⟨fun {_ col} => h.one col.isLt, fun {_ _ col} => h.stairs col.isLt⟩

/-- The rows from the cursor on are zero. -/
theorem eq_zero (h : IsEchelonWithin width cursor matrix) {row : Fin rows} (hrow : cursor ≤ row)
    {col : Fin cols} (hcol : col.val < width) : matrix row col = 0 := by
  by_contra hne
  obtain ⟨first, hle, hfirst⟩ := LeadsAt.exists_le hne
  have hbefore := (h.leads_iff row).2 ⟨first, (Fin.le_def.1 hle).trans_lt hcol, hfirst⟩
  omega

/-- A row above the cursor does not lead in a column that was not visited. -/
theorem lt_width (h : IsEchelonWithin width cursor matrix) {row : Fin rows} (hrow : row < cursor)
    {col : Fin cols} (hleads : LeadsAt (matrix row) col) : col.val < width := by
  obtain ⟨first, hlt, hfirst⟩ := (h.leads_iff row).1 hrow
  rwa [hleads.unique hfirst]

variable {col : Fin cols}

/-- A column in which no row from the cursor on leads. -/
theorem skip (h : IsEchelonWithin col cursor matrix)
    (hnone : ∀ row : Fin rows, cursor ≤ row → ¬ LeadsAt (matrix row) col) :
    IsEchelonWithin (col + 1) cursor matrix := by
  have hvisited : ∀ {row other}, other.val < col.val + 1 → LeadsAt (matrix row) other →
      other.val < col.val := by
    intro row other hlt hleads
    by_cases hrow : row.val < cursor
    · exact h.lt_width hrow hleads
    · have hne : other ≠ col := fun heq => hnone row (not_lt.1 hrow) (heq ▸ hleads)
      have := Fin.val_ne_of_ne hne
      omega
  refine ⟨fun hlt hleads => h.one (hvisited hlt hleads) hleads,
    fun hlt hrows hleads => h.stairs (hvisited hlt hleads) hrows hleads, fun row => ?_⟩
  rw [h.leads_iff row]
  exact exists_congr fun other => and_congr_left fun hleads =>
    ⟨fun hlt => hlt.trans (Nat.lt_succ_self _), fun hlt => hvisited hlt hleads⟩

/-- A column in which the row at the cursor leads with a one and the rows below it are zero. -/
theorem extend {top : Fin rows} (h : IsEchelonWithin col top matrix)
    (habove : ∀ row < top, after row = matrix row) (htop : LeadsAt (after top) col)
    (hone : after top col = 1) (hbelow : ∀ row > top, ∀ other ≤ col, after row other = 0) :
    IsEchelonWithin (col + 1) (top + 1) after := by
  -- a row that leads in these columns is an old one, or the one at the cursor
  have hrows : ∀ {row other}, other.val < col.val + 1 → LeadsAt (after row) other →
      row < top ∧ other < col ∧ LeadsAt (matrix row) other ∨ row = top ∧ other = col := by
    intro row other hlt hleads
    rcases lt_trichotomy row top with habove' | rfl | hbelow'
    · rw [habove row habove'] at hleads
      exact .inl ⟨habove', h.lt_width habove' hleads, hleads⟩
    · exact .inr ⟨rfl, hleads.unique htop⟩
    · exact absurd (hbelow row hbelow' other (Nat.lt_succ_iff.1 hlt)) hleads.1
  constructor
  case one =>
    intro row other hlt hleads
    rcases hrows hlt hleads with ⟨hrow, hother, hold⟩ | ⟨rfl, rfl⟩
    · rw [habove row hrow]
      exact h.one hother hold
    · exact hone
  case stairs =>
    intro upper lower other hlt hupper hleads
    rcases hrows hlt hleads with ⟨hlower, hother, hold⟩ | ⟨rfl, rfl⟩
    · rw [habove upper (hupper.trans hlower)]
      exact h.stairs hother hupper hold
    · rw [habove upper hupper]
      exact (h.leads_iff upper).1 hupper
  case leads_iff =>
    intro row
    constructor
    · intro hlt
      rcases Nat.lt_succ_iff_lt_or_eq.1 hlt with hrow | hrow
      · obtain ⟨other, hother, hleads⟩ := (h.leads_iff row).1 hrow
        exact ⟨other, hother.trans (Nat.lt_succ_self _), by rwa [habove row hrow]⟩
      · exact ⟨col, Nat.lt_succ_self _, by rwa [Fin.ext hrow]⟩
    · rintro ⟨other, hlt, hleads⟩
      rcases hrows hlt hleads with ⟨hrow, -, -⟩ | ⟨rfl, -⟩
      · exact Nat.lt_succ_of_lt hrow
      · exact Nat.lt_succ_self _

end IsEchelonWithin

/-! ## Clearing above the leading ones -/

section Clears

variable {before after : Matrix (Fin rows) (Fin cols) ℚ} {pivot : Fin rows} {col : Fin cols}

/-- Clearing above a leading one moves no leading entry. -/
theorem IsEchelon.leadsAt_iff_of_clears (h : IsEchelon before) (hpivot : LeadsAt (before pivot) col)
    (hclears : Clears (· < pivot) pivot col before after) (row : Fin rows) (other : Fin cols) :
    LeadsAt (after row) other ↔ LeadsAt (before row) other := by
  by_cases hrow : row < pivot
  · -- a row above leads further left than the pivot, where the pivot row is zero
    obtain ⟨first, hfirst, hleads⟩ := h.stairs hrow hpivot
    have hagree : ∀ earlier < col, after row earlier = before row earlier :=
      fun earlier hlt => hclears.apply_eq_of_pivot (hpivot.2 earlier hlt) row
    have hcongr : ∀ place < col, LeadsAt (after row) place ↔ LeadsAt (before row) place :=
      fun place hlt => LeadsAt.congr fun earlier hle => hagree earlier (hle.trans_lt hlt)
    constructor
    · intro hother
      obtain rfl := hother.unique ((hcongr first hfirst).2 hleads)
      exact hleads
    · intro hother
      obtain rfl := hother.unique hleads
      exact (hcongr other hfirst).2 hleads
  · rw [hclears.kept row hrow]

/-- Clearing above a leading entry keeps an echelon form. -/
theorem IsEchelon.of_clears (h : IsEchelon before) (hpivot : LeadsAt (before pivot) col)
    (hclears : Clears (· < pivot) pivot col before after) : IsEchelon after := by
  have hleads := h.leadsAt_iff_of_clears hpivot hclears
  refine ⟨fun {row other} hother => ?_, fun {upper lower other} hlt hother => ?_⟩
  · rw [hleads] at hother
    by_cases hrow : row < pivot
    · obtain ⟨first, hfirst, hleads'⟩ := h.stairs hrow hpivot
      obtain rfl := hother.unique hleads'
      rw [hclears.apply_eq_of_pivot (hpivot.2 other hfirst), h.one hother]
    · rw [hclears.kept row hrow, h.one hother]
  · simp only [hleads] at hother ⊢
    exact h.stairs hlt hother

/-- The column of the leading one is cleared: above it by this step, below it in any echelon form.
-/
theorem IsEchelon.isCleared_of_clears (h : IsEchelon before) (hpivot : LeadsAt (before pivot) col)
    (hclears : Clears (· < pivot) pivot col before after) : IsCleared after pivot col := by
  intro _ other hne
  rcases lt_or_gt_of_ne hne with habove | hbelow
  · exact hclears.apply_eq_zero (h.one hpivot) habove
  · rw [hclears.kept other hbelow.not_gt, h.eq_zero_below hbelow hpivot]

/-- A column that was cleared before stays so. -/
theorem IsCleared.of_clears {row : Fin rows} {other : Fin cols}
    (hcleared : IsCleared before row other) (h : IsEchelon before)
    (hpivot : LeadsAt (before pivot) col)
    (hclears : Clears (· < pivot) pivot col before after) : IsCleared after row other := by
  intro hleads
  by_cases hsame : other = col
  · subst hsame
    rw [h.leadsAt_iff_of_clears hpivot hclears] at hleads
    obtain rfl := h.row_unique hleads hpivot
    exact h.isCleared_of_clears hpivot hclears (by rwa [h.leadsAt_iff_of_clears hpivot hclears])
  · rw [h.leadsAt_iff_of_clears hpivot hclears] at hleads
    have hzero : before pivot other = 0 := by
      refine hcleared hleads pivot fun heq => hsame ?_
      exact hleads.unique (heq ▸ hpivot)
    intro lower hne
    rw [hclears.apply_eq_of_pivot hzero, hcleared hleads lower hne]

end Clears

namespace Grid

/-! ## Loops -/

/-- What holds at the start and is carried from each column to the next one holds at the end. -/
theorem foldl_finRange_induction {β : Type} {n : Nat} {step : β → Fin n → β} {start : β}
    {P : Nat → β → Prop} (hstart : P 0 start)
    (hstep : ∀ (i : Fin n) state, P i state → P (i + 1) (step state i)) :
    P n ((List.finRange n).foldl step start) := by
  induction n with
  | zero => exact hstart
  | succ n ih =>
    rw [List.finRange_succ_last, List.foldl_append, List.foldl_map]
    exact hstep (Fin.last n) _ (ih fun i state => hstep i.castSucc state)

/-! ## Row echelon form -/

variable {grid : Grid rows cols}

/-- Adding a multiple of another row gives a row equivalent matrix. -/
theorem rowEquiv_addScaledRow {source target : Fin rows} (hne : target ≠ source)
    (factor : Fraction) : RowEquiv (grid.addScaledRow source factor target).values grid.values := by
  rw [values_addScaledRow]
  exact .addScaledRow _ hne _

/-- A row is divided by one of its entries other than zero. -/
theorem rowEquiv_scaleRow_inv {row : Fin rows} {col : Fin cols} (hne : grid.values row col ≠ 0) :
    RowEquiv (grid.scaleRow row (grid.entry row col).inv).values grid.values := by
  rw [values_scaleRow, Fraction.toRat_inv]
  exact .scaleRow _ row (inv_ne_zero hne)

/-- Clearing below a pivot gives a row equivalent matrix. -/
theorem rowEquiv_clearBelow (pivot : Fin rows) (col : Fin cols) (grid : Grid rows cols)
    (row : Fin rows) : RowEquiv (clearBelow pivot col grid row).values grid.values := by
  unfold clearBelow
  split
  · next h =>
    have hlt : pivot < row := of_decide_eq_true (Bool.and_eq_true_iff.1 h).1
    exact rowEquiv_addScaledRow hlt.ne' _
  · exact .refl _

/-- Clearing above a leading entry gives a row equivalent matrix. -/
theorem rowEquiv_clearAbove (pivot : Fin rows) (col : Fin cols) (grid : Grid rows cols)
    (row : Fin rows) : RowEquiv (clearAbove pivot col grid row).values grid.values := by
  unfold clearAbove
  split
  · next h =>
    have hlt : row < pivot := of_decide_eq_true (Bool.and_eq_true_iff.1 h).1
    exact rowEquiv_addScaledRow hlt.ne _
  · exact .refl _

/-- A loop whose steps give row equivalent grids. -/
theorem rowEquiv_foldl {ι : Type} {step : Grid rows cols → ι → Grid rows cols}
    (h : ∀ grid item, RowEquiv (step grid item).values grid.values) (list : List ι)
    (grid : Grid rows cols) : RowEquiv (list.foldl step grid).values grid.values :=
  List.foldlRecOn (motive := fun state : Grid rows cols => RowEquiv state.values grid.values) list
    step (.refl _) fun state hstate item _ => (h state item).trans hstate

/-- What a column of elimination does: nothing if no row from the cursor on leads there, and
otherwise a row that does is moved to the cursor, divided by its leading entry, and used to clear
the rows below. -/
theorem eliminate_cases (state : Elimination rows cols) (col : Fin cols) :
    (eliminate state col = state ∧
      ∀ row : Fin rows, state.cursor ≤ row → ¬ LeadsAt (state.grid.values row) col) ∨
    ∃ top found : Fin rows, top.val = state.cursor ∧ top ≤ found ∧
      LeadsAt (state.grid.values found) col ∧
      let swapped := state.grid.swapRows top found
      eliminate state col = ⟨(List.finRange rows).foldl (clearBelow top col)
        (swapped.scaleRow top (swapped.entry top col).inv), state.cursor + 1⟩ := by
  unfold eliminate
  split
  · next hcursor =>
    cases hpivot : state.grid.pivotRow? state.cursor col with
    | none =>
      refine .inl ⟨rfl, fun row hrow hleads => ?_⟩
      have hrefused := List.find?_eq_none.1 hpivot row (List.mem_finRange row)
      simp [hrow, isLeading_iff.2 hleads] at hrefused
    | some found =>
      have hfound := List.find?_some hpivot
      rw [Bool.and_eq_true_iff] at hfound
      exact .inr ⟨⟨state.cursor, hcursor⟩, found, rfl, of_decide_eq_true hfound.1,
        isLeading_iff.1 hfound.2, rfl⟩
  · next hcursor => exact .inl ⟨rfl, fun row hrow => absurd (row.isLt.trans_le' hrow) hcursor⟩

/-- One column of elimination gives a row equivalent matrix. -/
theorem rowEquiv_eliminate (state : Elimination rows cols) (col : Fin cols) :
    RowEquiv (eliminate state col).grid.values state.grid.values := by
  obtain ⟨heq, -⟩ | ⟨top, found, -, -, hleads, heq⟩ := eliminate_cases state col
  · rw [heq]
    exact .refl _
  · have hpivot : (state.grid.swapRows top found).values top col ≠ 0 := by
      rw [values_apply, entry_swapRows, if_pos rfl]
      exact hleads.1
    rw [heq]
    refine (rowEquiv_foldl (rowEquiv_clearBelow top col) _ _).trans ?_
    refine (rowEquiv_scaleRow_inv hpivot).trans ?_
    rw [values_swapRows]
    exact .swapRows _ top found

/-- Row echelon form is row equivalent to the grid. -/
theorem rowEquiv_ref (grid : Grid rows cols) : RowEquiv grid.ref.values grid.values := by
  rw [ref_eq_foldl]
  exact List.foldlRecOn
    (motive := fun state : Elimination rows cols => RowEquiv state.grid.values grid.values) _
    eliminate (.refl _) fun state hstate col _ => (rowEquiv_eliminate state col).trans hstate

/-- A row is moved to the top and divided by one of its entries. -/
theorem values_scaleRow_swapRows (grid : Grid rows cols) (top found : Fin rows) (col : Fin cols) :
    ((grid.swapRows top found).scaleRow top ((grid.swapRows top found).entry top col).inv).values =
      (grid.values.submatrix (Equiv.swap top found) id).updateRow top
        ((grid.values found col)⁻¹ • grid.values found) := by
  have hrow : (grid.swapRows top found).values top = grid.values found := by
    funext other
    rw [values_swapRows, Matrix.submatrix_apply, Equiv.swap_apply_left, id]
  rw [values_scaleRow, Fraction.toRat_inv, ← values_apply, hrow, values_swapRows]

/-- Every column of elimination keeps the invariant. -/
theorem isEchelonWithin_eliminate {state : Elimination rows cols} {col : Fin cols}
    (h : IsEchelonWithin col state.cursor state.grid.values) :
    IsEchelonWithin (col + 1) (eliminate state col).cursor (eliminate state col).grid.values := by
  obtain ⟨heq, hnone⟩ | ⟨top, found, htop, hle, hleads, heq⟩ := eliminate_cases state col
  · rw [heq]
    exact h.skip hnone
  · obtain ⟨grid, cursor⟩ := state
    dsimp only at *
    subst htop
    rw [heq]
    dsimp only
    generalize hscaled : (grid.swapRows top found).scaleRow top _ = scaled
    have hvalues := values_scaleRow_swapRows grid top found col
    rw [hscaled] at hvalues
    have htop : scaled.values top = (grid.values found col)⁻¹ • grid.values found := by
      rw [hvalues, Matrix.updateRow_self]
    have hother : ∀ row ≠ top, scaled.values row = grid.values (Equiv.swap top found row) := by
      intro row hne
      rw [hvalues, Matrix.updateRow_ne hne]
      rfl
    have hone : scaled.values top col = 1 := by
      rw [htop, Pi.smul_apply, smul_eq_mul, inv_mul_cancel₀ hleads.1]
    have hzero : ∀ before < col, scaled.values top before = 0 := by
      intro before hlt
      rw [htop, Pi.smul_apply, hleads.2 before hlt, smul_zero]
    have hclears := clears_foldl_clearBelow hone
    refine h.extend (fun row hlt => ?_) ?_ ?_ fun row hlt other hle' => ?_
    · rw [hclears.kept row hlt.not_gt, hother row hlt.ne,
        Equiv.swap_apply_of_ne_of_ne hlt.ne (hlt.trans_le hle).ne]
    · rw [hclears.kept top (lt_irrefl top)]
      exact ⟨hone ▸ one_ne_zero, hzero⟩
    · rw [hclears.kept top (lt_irrefl top), hone]
    · rcases hle'.lt_or_eq with hbefore | rfl
      · -- the row that is swapped down comes from the cursor, and is zero here as well
        have hswap : top ≤ Equiv.swap top found row := by
          rw [Equiv.swap_apply_def]
          split
          · exact hle
          · split
            · exact le_rfl
            · exact hlt.le
        rw [hclears.apply_eq_of_pivot (hzero other hbefore), hother row hlt.ne']
        exact h.eq_zero hswap hbefore
      · exact hclears.apply_eq_zero hone hlt

/-- Row echelon form is in echelon form. -/
theorem isEchelon_ref (grid : Grid rows cols) : IsEchelon grid.ref.values := by
  rw [ref_eq_foldl]
  exact (foldl_finRange_induction (P := fun width (state : Elimination rows cols) =>
    IsEchelonWithin width state.cursor state.grid.values) (.start grid.values)
    fun col state h => isEchelonWithin_eliminate h).isEchelon

/-! ## Reduced row echelon form -/

/-- In echelon form, a row with a leading entry clears its column above it, and other rows do
nothing. -/
theorem clearLeading_cases (h : IsEchelon grid.values) (col : Fin cols) (row : Fin rows) :
    (¬ LeadsAt (grid.values row) col ∧ clearLeading col grid row = grid) ∨
    (LeadsAt (grid.values row) col ∧
      Clears (· < row) row col grid.values (clearLeading col grid row).values) := by
  unfold clearLeading
  split
  · next hleading =>
    have hleads : LeadsAt (grid.values row) col := isLeading_iff.1 hleading
    -- the leading entry is one already, so that dividing by it changes no value
    have hone := h.one hleads
    have hscaled : (grid.scaleRow row (grid.entry row col).inv).values = grid.values := by
      rw [values_scaleRow, Fraction.toRat_inv, ← values_apply, hone, inv_one, one_smul]
      exact Matrix.updateRow_eq_self _ _
    have hclears := clears_foldl_clearAbove ((congrFun₂ hscaled row col).trans hone)
    rw [hscaled] at hclears
    exact .inr ⟨hleads, hclears⟩
  · next hleading => exact .inl ⟨fun hleads => hleading (isLeading_iff.2 hleads), rfl⟩

/-- Clearing the column of a leading entry keeps an echelon form. -/
theorem isEchelon_clearLeading (h : IsEchelon grid.values) (col : Fin cols) (row : Fin rows) :
    IsEchelon (clearLeading col grid row).values := by
  obtain ⟨-, heq⟩ | ⟨hleads, hclears⟩ := clearLeading_cases h col row
  · rwa [heq]
  · exact h.of_clears hleads hclears

/-- A column that has just been cleared is cleared. -/
theorem isCleared_clearLeading_self (h : IsEchelon grid.values) (col : Fin cols)
    (row : Fin rows) : IsCleared (clearLeading col grid row).values row col := by
  obtain ⟨hnot, heq⟩ | ⟨hleads, hclears⟩ := clearLeading_cases h col row
  · rw [heq]
    exact fun hleads => absurd hleads hnot
  · exact h.isCleared_of_clears hleads hclears

/-- A column that was cleared stays so while another one is. -/
theorem isCleared_clearLeading {row : Fin rows} {col : Fin cols}
    (hcleared : IsCleared grid.values row col) (h : IsEchelon grid.values) (other : Fin cols)
    (pivot : Fin rows) : IsCleared (clearLeading other grid pivot).values row col := by
  obtain ⟨-, heq⟩ | ⟨hleads, hclears⟩ := clearLeading_cases h other pivot
  · rwa [heq]
  · exact hcleared.of_clears h hleads hclears

/-- Reduced row echelon form is in reduced echelon form. -/
theorem isReducedEchelon_rref (grid : Grid rows cols) : IsReducedEchelon grid.rref.values := by
  rw [rref_eq_foldl]
  have hrow : ∀ (work : Grid rows cols) col, IsEchelon work.values →
      IsEchelon ((List.finRange rows).foldl (clearLeading col) work).values ∧
        ∀ row ∈ List.finRange rows,
          IsCleared ((List.finRange rows).foldl (clearLeading col) work).values row col :=
    fun work col h => foldl_establishes_of_invariant
      (I := fun work : Grid rows cols => IsEchelon work.values)
      (P := fun row work => IsCleared work.values row col)
      (fun work row h => isEchelon_clearLeading h col row)
      (fun row work h => isCleared_clearLeading_self h col row)
      (fun row pivot work h hcleared => isCleared_clearLeading hcleared h col pivot) _ h
  have hkeep : ∀ (work : Grid rows cols) col other row, IsEchelon work.values →
      IsCleared work.values row col →
      IsCleared ((List.finRange rows).foldl (clearLeading other) work).values row col :=
    fun work col other row h hcleared => (List.foldlRecOn
      (motive := fun work : Grid rows cols => IsEchelon work.values ∧ IsCleared work.values row col)
      _ _ ⟨h, hcleared⟩ fun work hwork pivot _ =>
        ⟨isEchelon_clearLeading hwork.1 other pivot,
          isCleared_clearLeading hwork.2 hwork.1 other pivot⟩).2
  obtain ⟨hechelon, hcleared⟩ := foldl_establishes_of_invariant
    (I := fun work : Grid rows cols => IsEchelon work.values)
    (P := fun col work => ∀ row, IsCleared work.values row col)
    (fun work col h => (hrow work col h).1)
    (fun col work h row => (hrow work col h).2 row (List.mem_finRange row))
    (fun col other work h hcleared row => hkeep work col other row h (hcleared row))
    (List.finRange cols) (isEchelon_ref grid)
  exact ⟨hechelon, fun row col => hcleared col (List.mem_finRange col) row⟩

/-- Clearing the column of a leading entry gives a row equivalent matrix. -/
theorem rowEquiv_clearLeading (col : Fin cols) (grid : Grid rows cols) (row : Fin rows) :
    RowEquiv (clearLeading col grid row).values grid.values := by
  unfold clearLeading
  split
  · next hleading =>
    exact (rowEquiv_foldl (rowEquiv_clearAbove row col) _ _).trans
      (rowEquiv_scaleRow_inv (isLeading_iff.1 hleading).1)
  · exact .refl _

/-- Reduced row echelon form is row equivalent to the grid. -/
theorem rowEquiv_rref (grid : Grid rows cols) : RowEquiv grid.rref.values grid.values := by
  rw [rref_eq_foldl]
  refine (rowEquiv_foldl (fun work col => ?_) _ _).trans (rowEquiv_ref grid)
  exact rowEquiv_foldl (rowEquiv_clearLeading col) _ _

end Grid

end MatrixCalc
