import MatrixCalc.Grid.Basic

/-!
# Elementary row operations

Swapping two rows, multiplying a row, and adding a multiple of one row to another. Each leaves the
other rows as they are stored; the entries that are computed come out in lowest terms. For each
there is one lemma that reads an entry of the result by cases on its row (`entry_swapRows`,
`entry_scaleRow`, `entry_addScaledRow`).
-/

namespace MatrixCalc.Grid

variable {rows cols : Nat}

theorem place_inj {row row' : Fin rows} {col col' : Fin cols} :
    place row col = place row' col' ↔ row = row' ∧ col = col' := by
  refine ⟨fun h => ?_, fun h => by rw [h.1, h.2]⟩
  have hrow := congrArg placeRow h
  have hcol := congrArg placeCol h
  simp only [placeRow_place, placeCol_place] at hrow hcol
  exact ⟨hrow, hcol⟩

/-- Storage in which the first `width` entries of one row are replaced. -/
def overwrite (target : Fin rows) (fresh : Vector Fraction cols) (width : Nat)
    (within : width ≤ cols) (entries : Vector Fraction (rows * cols)) :
    Vector Fraction (rows * cols) :=
  width.fold
    (fun col h entries =>
      entries.set (place target ⟨col, by omega⟩) fresh[col] (place target _).isLt)
    entries

theorem getElem_overwrite (target row : Fin rows) (fresh : Vector Fraction cols)
    (col : Fin cols) (width : Nat) (within : width ≤ cols)
    (entries : Vector Fraction (rows * cols)) :
    (overwrite target fresh width within entries)[(place row col).val] =
      if row = target ∧ col < width then fresh[col.val] else entries[(place row col).val] := by
  induction width with
  | zero => simp [overwrite]
  | succ width ih =>
    have step : overwrite target fresh (width + 1) within entries =
        (overwrite target fresh width (by omega) entries).set
          (place target ⟨width, by omega⟩) fresh[width] (place target _).isLt := by
      simp [overwrite]
    have same : (place target (⟨width, by omega⟩ : Fin cols)).val = (place row col).val ↔
        target = row ∧ width = col := by
      rw [← Fin.ext_iff, place_inj, Fin.ext_iff (a := ⟨width, _⟩)]
    rw [step, Vector.getElem_set, ih (by omega)]
    by_cases hrow : row = target
    · subst hrow
      by_cases hcol : width = col
      · simp [hcol]
      · have : col.val < width + 1 ↔ col.val < width := by omega
        simp [same, hcol, this]
    · simp [same, hrow, Ne.symm hrow]

/-- The grid with one row replaced. -/
def setRow (grid : Grid rows cols) (target : Fin rows) (fresh : Vector Fraction cols) :
    Grid rows cols :=
  ⟨overwrite target fresh cols (Nat.le_refl _) grid.entries⟩

@[simp] theorem entry_setRow (grid : Grid rows cols) (target row : Fin rows)
    (fresh : Vector Fraction cols) (col : Fin cols) :
    (grid.setRow target fresh).entry row col =
      if row = target then fresh[col.val] else grid.entry row col := by
  simp [entry, setRow, getElem_overwrite]

/-- The grid with two rows swapped. -/
def swapRows (grid : Grid rows cols) (first second : Fin rows) : Grid rows cols :=
  if first = second then grid
  else
    let upper := Vector.ofFn (grid.entry first)
    let lower := Vector.ofFn (grid.entry second)
    (grid.setRow second upper).setRow first lower

@[simp] theorem entry_swapRows (grid : Grid rows cols) (first second row : Fin rows)
    (col : Fin cols) :
    (grid.swapRows first second).entry row col =
      if row = first then grid.entry second col
      else if row = second then grid.entry first col
      else grid.entry row col := by
  by_cases same : first = second
  · subst same
    by_cases h : row = first <;> simp [swapRows, h]
  · simp [swapRows, same]

/-- The grid with one row multiplied by a fraction. -/
def scaleRow (grid : Grid rows cols) (target : Fin rows) (factor : Fraction) : Grid rows cols :=
  grid.setRow target (.ofFn fun col => ((grid.entry target col).mul factor).reduce)

@[simp] theorem entry_scaleRow (grid : Grid rows cols) (target row : Fin rows)
    (factor : Fraction) (col : Fin cols) :
    (grid.scaleRow target factor).entry row col =
      if row = target then ((grid.entry target col).mul factor).reduce else grid.entry row col := by
  simp [scaleRow]

/-- The grid with a multiple of the row `source` added to the row `target`. -/
def addScaledRow (grid : Grid rows cols) (source : Fin rows) (factor : Fraction)
    (target : Fin rows) : Grid rows cols :=
  grid.setRow target
    (.ofFn fun col => ((grid.entry target col).add ((grid.entry source col).mul factor)).reduce)

@[simp] theorem entry_addScaledRow (grid : Grid rows cols) (source : Fin rows)
    (factor : Fraction) (target row : Fin rows) (col : Fin cols) :
    (grid.addScaledRow source factor target).entry row col =
      if row = target then
        ((grid.entry target col).add ((grid.entry source col).mul factor)).reduce
      else grid.entry row col := by
  simp [addScaledRow]

end MatrixCalc.Grid
