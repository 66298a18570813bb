import MatrixCalc.Proofs.Grid.Pivots
import MatrixCalc.Proofs.RatMatrix.Congruence
import MatrixCalc.RatMatrix.Access

/-!
# Elimination by number

The programs below run the elimination on rows, columns and entries that are looked up by number,
where a number outside of the matrix is a fault, and with divisions that refuse zero. They never
fall outside and never divide by zero, so that they come to the same as the plain ones
(`rrefByNumber_eq`, `inverseByNumber_eq`).
-/

namespace MatrixCalc.RatMatrix

variable {rows cols : Nat}

/-! ## Numbers of rows and columns -/

/-- The number of a row or of a column, which are counted from one. -/
def number {n : Nat} (index : Fin n) : Int :=
  index + 1

/-- Numbers are in the order of the places. -/
theorem number_lt_iff {n : Nat} {index other : Fin n} :
    number index < number other ↔ index < other := by
  simp only [number, Fin.lt_def]
  omega

/-- Different places have different numbers. -/
theorem number_inj {n : Nat} {index other : Fin n} :
    number index = number other ↔ index = other := by
  simp only [number, Fin.ext_iff]
  omega

section Lookup

variable (grid : Grid rows cols) (row other : Fin rows) (col : Fin cols)

/-- The number of a row and that of a column are found. -/
theorem locate_number : (mk rows cols grid).locate (number row) (number col) = .ok (row, col) := by
  have hbounds : (1 ≤ number row ∧ number row ≤ rows) ∧ 1 ≤ number col ∧ number col ≤ cols := by
    simp only [number]
    omega
  rw [locate, dif_pos hbounds]
  simp [number]

/-- The number of a row is found. -/
theorem locateRow_number : (mk rows cols grid).locateRow (number row) = .ok row := by
  have hbounds : 1 ≤ number row ∧ number row ≤ rows := by
    simp only [number]
    omega
  rw [locateRow, dif_pos hbounds]
  simp [number]

/-- The entry at two numbers is the one at their row and column. -/
theorem get_number :
    (mk rows cols grid).get (number row) (number col) = .ok (grid.entry row col) := by
  rw [get, locate_number]
  rfl

/-- The test for a leading entry by numbers is the one by row and column. -/
theorem isLeading_number :
    (mk rows cols grid).isLeading (number row) (number col) = .ok (grid.isLeading row col) := by
  rw [isLeading, locate_number]
  rfl

end Lookup

/-- The numbers in the wording of the fault of a place can be written. -/
def CanName (m : RatMatrix) (row col : Int) : Prop :=
  ∀ value ∈ [row, col, m.rows, m.cols], Numeral.fits value = true

instance (m : RatMatrix) (row col : Int) : Decidable (m.CanName row col) :=
  inferInstanceAs (Decidable (∀ value ∈ _, _))

section Outside

variable {m : RatMatrix} {row col : Int}

/-- A place outside a matrix is reported with its numbers, if these can be written. -/
theorem outside_of_canName (h : m.CanName row col) :
    m.outside row col = .fault (.outside row col m.rows m.cols) :=
  if_pos (List.all_eq_true.2 h)

/-- A place whose numbers are too long is reported as that. -/
theorem outside_of_not_canName (h : ¬ m.CanName row col) :
    m.outside row col = .fault .tooLongToWrite :=
  if_neg fun hfits => h (List.all_eq_true.1 hfits)

/-- The fault of a place outside is of the class of such faults only if it can name the place. -/
theorem className_outside_iff :
    (m.outside row col).className = "IndexError" ↔ m.CanName row col := by
  by_cases h : m.CanName row col
  · rw [outside_of_canName h]
    exact iff_of_true rfl h
  · rw [outside_of_not_canName h]
    exact iff_of_false (by decide) h

end Outside

section RowOperations

variable (grid : Grid rows cols) (row other : Fin rows) (factor : Fraction)

/-- Without columns there is one grid only. -/
theorem grid_eq_of_cols_eq_zero (h : cols = 0) (left right : Grid rows cols) : left = right := by
  subst h
  ext _ col
  exact col.elim0

/-- Rows are swapped by their numbers. -/
theorem swapRows_number : (mk rows cols grid).swapRows (number row) (number other) =
    .ok (mk rows cols (grid.swapRows row other)) := by
  unfold swapRows
  split
  · next h =>
    have hsame : grid.swapRows row other = grid := by
      rcases Bool.or_eq_true_iff.1 h with hcols | hrows
      · exact grid_eq_of_cols_eq_zero (of_decide_eq_true hcols) _ _
      · obtain rfl := number_inj.1 (of_decide_eq_true hrows)
        ext place col
        rw [Grid.entry_swapRows]
        split
        · next hplace => rw [hplace]
        · rfl
    rw [hsame]
  · rw [locateRow_number, locateRow_number]
    rfl

/-- A row is scaled by its number. -/
theorem scaleRow_number : (mk rows cols grid).scaleRow (number row) factor =
    .ok (mk rows cols (grid.scaleRow row factor)) := by
  unfold scaleRow
  split
  · next h => rw [grid_eq_of_cols_eq_zero h (grid.scaleRow row factor) grid]
  · rw [locateRow_number]
    rfl

/-- A multiple of a row is added by the numbers of both. -/
theorem addScaledRow_number :
    (mk rows cols grid).addScaledRow (number row) factor (number other) =
      .ok (mk rows cols (grid.addScaledRow row factor other)) := by
  unfold addScaledRow
  split
  · next h => rw [grid_eq_of_cols_eq_zero h (grid.addScaledRow row factor other) grid]
  · rw [locateRow_number, locateRow_number]
    rfl

end RowOperations

/-! ## Programs by number -/

/-- `Grid.pivotRow?` by number. -/
def pivotRowByNumber (m : RatMatrix) (cursor col : Int) : Except Failure (Option Int) := do
  let found ← ((List.finRange m.rows).filter (cursor ≤ number ·)).findM? fun row =>
    m.isLeading (number row) col
  .ok (found.map number)

/-- `Grid.clearBelow` by number. -/
def clearBelowByNumber (pivot col : Int) (m : RatMatrix) (row : Int) :
    Except Failure RatMatrix := do
  let below ← m.get row col
  if below.isZero then .ok m else m.addScaledRow pivot below.neg row

/-- `Grid.eliminate` by number. -/
def eliminateByNumber (state : RatMatrix × Int) (col : Int) :
    Except Failure (RatMatrix × Int) := do
  let (m, cursor) := state
  if m.rows < cursor then .ok (m, cursor)
  else
    match ← m.pivotRowByNumber cursor col with
    | none => .ok (m, cursor)
    | some found => do
        let swapped ← m.swapRows cursor found
        let pivot ← swapped.get cursor col
        let factor ← pivot.reciprocal
        let scaled ← swapped.scaleRow cursor factor
        let cleared ← ((List.finRange m.rows).filter (cursor < number ·)).foldlM
          (fun work row => clearBelowByNumber cursor col work (number row)) scaled
        .ok (cleared, cursor + 1)

/-- `ref` by number. -/
def refByNumber (m : RatMatrix) : Except Failure RatMatrix := do
  let (work, _) ← (List.finRange m.cols).foldlM
    (fun state col => eliminateByNumber state (number col)) (m, 1)
  .ok work

/-- `Grid.clearAbove` by number. -/
def clearAboveByNumber (pivot col : Int) (m : RatMatrix) (row : Int) :
    Except Failure RatMatrix := do
  let above ← m.get row col
  if above.isZero then .ok m
  else do
    let leading ← m.get pivot col
    let factor ← leading.reciprocal
    m.addScaledRow pivot (above.neg.mul factor) row

/-- `Grid.clearLeading` by number. -/
def clearLeadingByNumber (col : Int) (m : RatMatrix) (row : Int) : Except Failure RatMatrix := do
  if ← m.isLeading row col then
    let pivot ← m.get row col
    let factor ← pivot.reciprocal
    let scaled ← m.scaleRow row factor
    ((List.finRange m.rows).filter (number · < row)).reverse.foldlM
      (fun work above => clearAboveByNumber row col work (number above)) scaled
  else .ok m

/-- `rref` by number. -/
def rrefByNumber (m : RatMatrix) : Except Failure RatMatrix := do
  let work ← m.refByNumber
  (List.finRange m.cols).foldlM
    (fun work col => (List.finRange m.rows).foldlM
      (fun work row => clearLeadingByNumber (number col) work (number row)) work) work

/-- `Grid.hasUnitPivot` by number. -/
def hasUnitPivotByNumber (m : RatMatrix) (col : Int) : Except Failure Bool :=
  (List.finRange m.rows).anyM fun row => do
    if ← m.isLeading (number row) col then
      let entry ← m.get (number row) col
      .ok (entry = 1)
    else .ok false

/-- `inverse` by number. -/
def inverseByNumber (m : RatMatrix) : Except Failure RatMatrix := do
  if m.isSquare then
    let paired ← m.augment (identity m.rows)
    let reduced ← paired.rrefByNumber
    if ← (List.finRange m.rows).allM fun col => reduced.hasUnitPivotByNumber (number col) then
      reduced.columnSlice (m.rows + 1) (2 * m.rows)
    else .error (Failure.because .singular)
  else .error (Failure.because .inverseOfNonSquare)

/-! ## Echelon forms by number -/

/-- A loop does what a loop over other states does, if its steps do. -/
theorem foldlM_map_eq {ι β γ : Type} {step : β → ι → Except Failure β}
    {placed : γ → ι → Except Failure γ} (place : β → γ)
    (h : ∀ state item, placed (place state) item = (step state item).map place)
    (list : List ι) (start : β) :
    list.foldlM placed (place start) = (list.foldlM step start).map place := by
  induction list generalizing start with
  | nil => rfl
  | cons item rest ih =>
    rw [List.foldlM_cons, List.foldlM_cons, h]
    cases step start item with
    | error => rfl
    | ok next => exact ih next

/-- The search for a pivot by numbers finds the same row. -/
theorem pivotRowByNumber_number (grid : Grid rows cols) (cursor : Nat) (col : Fin cols) :
    (mk rows cols grid).pivotRowByNumber (cursor + 1) (number col) =
      .ok ((grid.pivotRow? cursor col).map number) := by
  have hcursor : ∀ row : Fin rows, (cursor : Int) + 1 ≤ number row ↔ cursor ≤ row := by
    intro row
    simp only [number]
    omega
  have hfound : ((List.finRange rows).filter ((cursor : Int) + 1 ≤ number ·)).findM?
      (fun row => (mk rows cols grid).isLeading (number row) (number col)) =
        .ok (grid.pivotRow? cursor col) := by
    simp only [isLeading_number, hcursor]
    refine (List.findM?_pure (grid.isLeading · col) _).trans (congrArg Except.ok ?_)
    rw [List.find?_filter]
    simp only [decide_eq_true_iff, Bool.decide_and, Bool.decide_eq_true]
    rfl
  rw [pivotRowByNumber, hfound]
  rfl

/-- Clearing an entry below a pivot by numbers is clearing it. -/
theorem clearBelowByNumber_number (pivot : Fin rows) (col : Fin cols) (grid : Grid rows cols)
    (row : Fin rows) (hlt : pivot < row) :
    clearBelowByNumber (number pivot) (number col) (mk rows cols grid) (number row) =
      .ok (mk rows cols (grid.clearBelow pivot col row)) := by
  rw [clearBelowByNumber, get_number, Grid.clearBelow]
  simp only [hlt, decide_true, Bool.true_and]
  cases h : (grid.entry row col).isZero with
  | true => simp [h, bind, Except.bind]
  | false => simp [h, bind, Except.bind, addScaledRow_number]

/-- The state of an elimination by number. -/
def placed (state : Grid.Elimination rows cols) : RatMatrix × Int :=
  (mk rows cols state.grid, state.cursor + 1)

/-- Clearing all rows with greater numbers is clearing all rows, as the others are left alone. -/
theorem foldlM_clearBelowByNumber (pivot : Fin rows) (col : Fin cols) (grid : Grid rows cols) :
    ((List.finRange rows).filter (number pivot < number ·)).foldlM
      (fun work row => clearBelowByNumber (number pivot) (number col) work (number row))
      (mk rows cols grid) =
        .ok (mk rows cols ((List.finRange rows).foldl (Grid.clearBelow pivot col) grid)) := by
  rw [List.foldlM_filter]
  refine (foldlM_map_eq (mk rows cols) (fun work row => show _ = Except.map (mk rows cols)
    (pure (Grid.clearBelow pivot col work row)) from ?_) _ grid).trans
    (by rw [List.foldlM_pure]; rfl)
  simp only [number_lt_iff, decide_eq_true_iff]
  split
  · next hlt => exact clearBelowByNumber_number pivot col work row hlt
  · next hlt =>
    rw [Grid.clearBelow, if_neg (by simp [hlt])]
    rfl

/-- One column of elimination by numbers is one column of elimination. -/
theorem eliminateByNumber_number (state : Grid.Elimination rows cols) (col : Fin cols) :
    eliminateByNumber (placed state) (number col) =
      (Grid.eliminateChecked state col).map placed := by
  obtain ⟨grid, cursor⟩ := state
  unfold Grid.eliminateChecked
  by_cases hcursor : cursor < rows
  · have hinside : ¬ (rows : Int) < cursor + 1 := by omega
    have htop : (cursor : Int) + 1 = number ⟨cursor, hcursor⟩ := rfl
    simp only [eliminateByNumber, placed, hinside, hcursor, if_false, dif_pos]
    rw [pivotRowByNumber_number]
    cases grid.pivotRow? cursor col with
    | none => rfl
    | some found =>
      simp only [htop, Option.map_some, swapRows_number, get_number, bind, Except.bind]
      cases (grid.swapRows ⟨cursor, hcursor⟩ found).entry ⟨cursor, hcursor⟩ col |>.reciprocal with
      | error => rfl
      | ok factor =>
        simp only [scaleRow_number, foldlM_clearBelowByNumber]
        rfl
  · have houtside : (rows : Int) < cursor + 1 := by omega
    simp only [eliminateByNumber, placed, houtside, hcursor, if_true, dif_neg, not_false_iff]
    rfl

/-- Row echelon form by number falls nowhere outside and divides by no zero. -/
theorem refByNumber_eq (m : RatMatrix) : m.refByNumber = .ok m.ref := by
  obtain ⟨rows, cols, grid⟩ := m
  have hloop : (List.finRange cols).foldlM (fun state col => eliminateByNumber state (number col))
      (placed ⟨grid, 0⟩) =
        ((List.finRange cols).foldlM Grid.eliminateChecked ⟨grid, 0⟩).map placed :=
    foldlM_map_eq placed eliminateByNumber_number _ _
  have hchecked := grid.refChecked_eq
  rw [Grid.refChecked] at hchecked
  show (List.foldlM _ (placed ⟨grid, 0⟩) _ >>= _) = _
  rw [hloop]
  cases hend : (List.finRange cols).foldlM Grid.eliminateChecked ⟨grid, 0⟩ with
  | error => rw [hend] at hchecked; cases hchecked
  | ok state =>
    rw [hend] at hchecked
    exact congrArg (fun grid => Except.ok (mk rows cols grid)) (Except.ok.inj hchecked)

/-- Clearing an entry above a leading one by numbers is clearing it. -/
theorem clearAboveByNumber_number (pivot : Fin rows) (col : Fin cols) (grid : Grid rows cols)
    (row : Fin rows) (hlt : row < pivot) :
    clearAboveByNumber (number pivot) (number col) (mk rows cols grid) (number row) =
      (Grid.clearAboveChecked pivot col grid row).map (mk rows cols) := by
  rw [clearAboveByNumber, get_number, Grid.clearAboveChecked]
  simp only [hlt, decide_true, Bool.true_and]
  cases h : (grid.entry row col).isZero with
  | true => simp [h, bind, Except.bind, Except.map]
  | false =>
    simp only [h, get_number, bind, Except.bind]
    cases (grid.entry pivot col).reciprocal with
    | error => rfl
    | ok factor => exact addScaledRow_number ..

/-- Clearing all rows with smaller numbers is clearing all rows, as the others are left alone. -/
theorem foldlM_clearAboveByNumber (pivot : Fin rows) (col : Fin cols) (grid : Grid rows cols) :
    ((List.finRange rows).filter (number · < number pivot)).reverse.foldlM
      (fun work row => clearAboveByNumber (number pivot) (number col) work (number row))
      (mk rows cols grid) =
        ((List.finRange rows).reverse.foldlM (Grid.clearAboveChecked pivot col) grid).map
          (mk rows cols) := by
  rw [← List.filter_reverse, List.foldlM_filter]
  refine foldlM_map_eq (mk rows cols) (fun work row => ?_) _ grid
  simp only [number_lt_iff, decide_eq_true_iff]
  split
  · next hlt => exact clearAboveByNumber_number pivot col work row hlt
  · next hlt =>
    rw [Grid.clearAboveChecked, if_neg (by simp [hlt])]
    rfl

/-- Clearing the column of a leading entry by numbers is clearing it. -/
theorem clearLeadingByNumber_number (col : Fin cols) (grid : Grid rows cols) (row : Fin rows) :
    clearLeadingByNumber (number col) (mk rows cols grid) (number row) =
      (Grid.clearLeadingChecked col grid row).map (mk rows cols) := by
  rw [clearLeadingByNumber, isLeading_number, Grid.clearLeadingChecked]
  cases grid.isLeading row col with
  | false => rfl
  | true =>
    simp only [get_number, bind, Except.bind, if_true]
    cases (grid.entry row col).reciprocal with
    | error => rfl
    | ok factor =>
      simp only [scaleRow_number]
      exact foldlM_clearAboveByNumber row col _

/-- Reduced row echelon form by number falls nowhere outside and divides by no zero. -/
theorem rrefByNumber_eq (m : RatMatrix) : m.rrefByNumber = .ok m.rref := by
  obtain ⟨rows, cols, grid⟩ := m
  have hchecked := grid.rrefChecked_eq
  rw [Grid.rrefChecked, Grid.refChecked_eq] at hchecked
  rw [rrefByNumber, refByNumber_eq]
  refine (foldlM_map_eq (mk rows cols) (fun work col => ?_) _ grid.ref).trans
    (congrArg (Except.map (mk rows cols)) hchecked)
  exact foldlM_map_eq (mk rows cols) (clearLeadingByNumber_number col) _ work

/-! ## The inverse by number -/

/-- The test of a diagonal entry by numbers is the one by row and column. -/
theorem hasUnitPivotByNumber_number (grid : Grid rows cols) (col : Fin cols) :
    (mk rows cols grid).hasUnitPivotByNumber (number col) = .ok (grid.hasUnitPivot col) := by
  have htest : ∀ row : Fin rows, (do
      if ← (mk rows cols grid).isLeading (number row) (number col) then
        let entry ← (mk rows cols grid).get (number row) (number col)
        Except.ok (decide (entry = 1))
      else Except.ok false) = Except.ok (grid.isLeading row col && grid.entry row col = 1) := by
    intro row
    rw [isLeading_number, get_number]
    cases grid.isLeading row col <;> rfl
  rw [hasUnitPivotByNumber]
  exact (congrArg (List.anyM · _) (funext htest)).trans List.anyM_pure

/-- Columns cut out at equal places are the same matrix. -/
theorem mk_columns_congr (grid : Grid rows cols) {first first' width width' : Nat}
    (hfirst : first = first') (hwidth : width = width') (hwithin : first + width ≤ cols) :
    mk rows width (grid.columns first width hwithin) =
      mk rows width' (grid.columns first' width' (hfirst ▸ hwidth ▸ hwithin)) := by
  subst hfirst hwidth
  rfl

/-- Columns that are all there; there may be none of them. -/
theorem columnSlice_columns (grid : Grid rows cols) (start width : Nat)
    (hwithin : start + width ≤ cols) :
    (mk rows cols grid).columnSlice (start + 1) (start + width) =
      .ok (mk rows width (grid.columns start width hwithin)) := by
  have hwidth : ((start : Int) + width - (start + 1) + 1).toNat = width := by omega
  have hroom : (mk rows cols grid).HasRoom (start + 1) (start + width) :=
    .inl (show _ ≤ (cols : Int) by omega)
  have hempty : rows = 0 ∨ width = 0 →
      zeros rows width = mk rows width (grid.columns start width hwithin) := by
    rintro (hrows | hcols)
    · exact congrArg (mk rows width) (Grid.eq_of_rows_eq_zero hrows _ _)
    · exact congrArg (mk rows width) (grid_eq_of_cols_eq_zero hcols _ _)
  rw [columnSlice, if_neg (not_not.2 hroom)]
  split
  · next hnone =>
    rw [hwidth]
    exact congrArg Except.ok (hempty (hnone.symm.imp_right fun hlt => by omega))
  · have hbounds : (1 : Int) ≤ start + 1 ∧ (start + width : Int) ≤ cols := by omega
    rw [dif_pos hbounds]
    exact congrArg Except.ok (mk_columns_congr grid (by omega) hwidth _)

/-- The inverse by number falls nowhere outside and divides by no zero. -/
theorem inverseByNumber_eq (m : RatMatrix) : m.inverseByNumber = m.inverse := by
  obtain ⟨rows, cols, grid⟩ := m
  by_cases hsquare : rows = cols
  · subst hsquare
    have hpaired : (mk rows rows grid).augment (identity rows) =
        .ok (mk rows (rows + rows) (grid.augment (.identity rows))) :=
      augment_mk grid _
    have hpivots : ((List.finRange rows).allM fun col : Fin rows =>
        (mk rows (rows + rows) (grid.augment (.identity rows))).rref.hasUnitPivotByNumber
          (number col)) = .ok ((List.finRange rows).all fun col =>
            (grid.augment (.identity rows)).rref.hasUnitPivot (col.castAdd rows)) := by
      have hcol : ∀ col : Fin rows, number col = number (col.castAdd rows) := fun _ => rfl
      simp only [rref, hcol, hasUnitPivotByNumber_number]
      exact List.allM_pure
    have hsize : (mk rows rows grid).isSquare = true := decide_eq_true rfl
    rw [inverseByNumber, if_pos hsize]
    simp only [hpaired, bind, Except.bind, rrefByNumber_eq, hpivots, inverse, dif_pos,
      castGrid_rfl, Grid.inverse?]
    split
    · have hlast : (2 * rows : Int) = rows + rows := by omega
      rw [hlast]
      exact columnSlice_columns _ rows rows (Nat.le_refl _)
    · rfl
  · simp only [inverseByNumber, isSquare, inverse, hsquare, decide_false, dif_neg, not_false_iff]
    rfl

end MatrixCalc.RatMatrix
