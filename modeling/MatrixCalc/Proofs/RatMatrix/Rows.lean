import MatrixCalc.RatMatrix.Basic
import Mathlib.Data.List.FinRange
import Mathlib.Data.List.OfFn

/-!
# Matrices and their rows

The rows of a matrix, one after the other, are its entries as they are stored, so that a matrix
with at least one row is made again from its rows (`ofRows_toRows`).
-/

namespace MatrixCalc

/-- The rows one after the other are all entries. -/
theorem Grid.flatten_toRows {rows cols : Nat} (grid : Grid rows cols) :
    grid.toRows.flatten = grid.toList := by
  have hentry : grid.toList = List.ofFn fun index : Fin (rows * cols) => grid.entries[index] := by
    rw [toList, ← Vector.toList_ofFn]
    congr 1
    ext index hindex
    simp
  rw [hentry, List.ofFn_mul, toRows, List.ofFn_eq_map]
  congr 1
  refine List.map_congr_left fun index _ => ?_
  rw [row, List.ofFn_eq_map]
  rfl

/-- All entries are those at some row and column. -/
theorem Grid.mem_toList_iff {rows cols : Nat} {grid : Grid rows cols} {value : Fraction} :
    value ∈ grid.toList ↔ ∃ row col, grid.entry row col = value := by
  rw [← flatten_toRows]
  simp [toRows, row]

/-- Every row has an entry for each column. -/
theorem Grid.length_of_mem_toRows {rows cols : Nat} {grid : Grid rows cols} {row : List Fraction}
    (h : row ∈ grid.toRows) : row.length = cols := by
  obtain ⟨index, -, rfl⟩ := List.mem_map.1 h
  simp [Grid.row]

namespace RatMatrix

/-- A matrix is made again from its entries. -/
theorem ofList_toList (m : RatMatrix) : ofList m.rows m.cols m.toList = .ok m := by
  obtain ⟨rows, cols, grid⟩ := m
  have hlength : grid.toList.length = rows * cols := by simp [Grid.toList]
  simp only [ofList, toList, hlength, dif_pos]
  rfl

/-- Every row has an entry for each column. -/
theorem length_of_mem_toRows {m : RatMatrix} {row : List Fraction} (h : row ∈ m.toRows) :
    row.length = m.cols :=
  Grid.length_of_mem_toRows h

/-- There are as many rows as the size says. -/
@[simp] theorem length_toRows (m : RatMatrix) : m.toRows.length = m.rows := by
  simp [toRows, Grid.toRows]

/-- Fractions that are given are read as they are. -/
theorem mapM_read_fraction (entries : List Fraction) :
    (entries.map GivenEntry.fraction).mapM GivenEntry.read = .ok entries := by
  rw [List.mapM_map]
  exact (List.mapM_pure (m := Except Failure) (f := id)).trans (by simp [pure, Except.pure])

/-- A matrix with at least one row is made again from its rows. -/
theorem ofRows_toRows {m : RatMatrix} (h : 0 < m.rows) :
    ofRows (m.toRows.map fun row => row.map .fraction) = .ok m := by
  have hflatten : (m.toRows.map fun row => row.map GivenEntry.fraction).flatten =
      m.toList.map GivenEntry.fraction := by
    rw [← List.map_flatten]
    exact congrArg _ m.grid.flatten_toRows
  have hlength := m.length_toRows
  obtain ⟨first, more, hrows⟩ := List.exists_cons_of_length_pos (hlength ▸ h)
  have hwidth : ∀ row ∈ first :: more, row.length = m.cols := fun row hrow =>
    length_of_mem_toRows (hrows ▸ hrow)
  have hfirst := hwidth first List.mem_cons_self
  rw [hrows] at hflatten hlength ⊢
  rw [List.map_cons] at hflatten ⊢
  have hall : ((first.map GivenEntry.fraction) :: more.map fun row =>
      row.map GivenEntry.fraction).all (fun row =>
        row.length = (first.map GivenEntry.fraction).length) = true := by
    simpa [hfirst] using (List.forall_mem_cons.1 hwidth).2
  rw [ofRows, if_pos hall, hflatten, mapM_read_fraction]
  show ofList _ _ m.toList = _
  have hcount : (first.map GivenEntry.fraction :: more.map fun row =>
      row.map GivenEntry.fraction).length = m.rows := by simpa using hlength
  rw [hcount, List.length_map, hfirst, ofList_toList]

/-- Rows of one length are the rows of a matrix. -/
theorem exists_toRows_eq {rows : List (List Fraction)} {width : Nat}
    (hwidth : ∀ row ∈ rows, row.length = width) :
    ∃ m : RatMatrix, m.toRows = rows ∧ m.cols = width := by
  refine ⟨⟨rows.length, width, .ofFn fun row col => (rows.get row).getD col 0⟩, ?_, rfl⟩
  refine List.ext_getElem (by simp) fun index _ hindex => ?_
  have hlength := hwidth rows[index] (List.getElem_mem hindex)
  refine List.ext_getElem ?_ fun place _ hplace => ?_
  · simp [toRows, Grid.toRows, Grid.row, hlength]
  · simp [toRows, Grid.toRows, Grid.row, hplace]

end RatMatrix

end MatrixCalc
