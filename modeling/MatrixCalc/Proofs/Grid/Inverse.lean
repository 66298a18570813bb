import MatrixCalc.Proofs.Echelon.Unique
import MatrixCalc.Proofs.Grid.EchelonForm
import Mathlib.Order.Preorder.Finite

/-!
# Inverses by elimination

`Grid.inverse?` reduces a square grid beside the identity. The reduced form is an invertible factor
times both halves, so that its left half is the identity exactly if its right half, the factor, is
the inverse of the grid (`inverse?_eq_some`, `exists_inverse?_eq_some`).
-/

namespace MatrixCalc

variable {size width : Nat}

/-! ## Reduced echelon forms that start with the identity -/

/-- The first columns of a matrix. -/
def leftHalf (matrix : Matrix (Fin size) (Fin (size + width)) ℚ) :
    Matrix (Fin size) (Fin size) ℚ :=
  matrix.submatrix id (Fin.castAdd width)

/-- The columns of a matrix after the first ones. -/
def rightHalf (matrix : Matrix (Fin size) (Fin (size + width)) ℚ) :
    Matrix (Fin size) (Fin width) ℚ :=
  matrix.submatrix id (Fin.natAdd size)

/-- Multiplying from the left multiplies the left half. -/
theorem leftHalf_mul (factor : Matrix (Fin size) (Fin size) ℚ)
    (matrix : Matrix (Fin size) (Fin (size + width)) ℚ) :
    leftHalf (factor * matrix) = factor * leftHalf matrix :=
  Matrix.submatrix_mul factor matrix id id _ Function.bijective_id

/-- Multiplying from the left multiplies the right half. -/
theorem rightHalf_mul (factor : Matrix (Fin size) (Fin size) ℚ)
    (matrix : Matrix (Fin size) (Fin (size + width)) ℚ) :
    rightHalf (factor * matrix) = factor * rightHalf matrix :=
  Matrix.submatrix_mul factor matrix id id _ Function.bijective_id

variable {matrix : Matrix (Fin size) (Fin (size + width)) ℚ}

/-- If the left half is the identity, its entries are those of the identity. -/
theorem apply_castAdd_of_leftHalf_eq_one (h : leftHalf matrix = 1) (row col : Fin size) :
    matrix row (col.castAdd width) = (1 : Matrix _ _ ℚ) row col :=
  congrFun (congrFun h row) col

/-- If a matrix starts with the identity, its rows lead on the diagonal. -/
theorem leadsAt_of_leftHalf_eq_one (h : leftHalf matrix = 1) (row : Fin size) :
    LeadsAt (matrix row) (row.castAdd width) := by
  have hentry := apply_castAdd_of_leftHalf_eq_one h row
  refine ⟨?_, fun before hlt => ?_⟩
  · rw [hentry, Matrix.one_apply_eq]
    exact one_ne_zero
  · have hbefore : before.val < row.val := hlt
    have hne : row ≠ ⟨before, hbefore.trans row.isLt⟩ := Fin.ne_of_val_ne hbefore.ne'
    exact (hentry ⟨before, hbefore.trans row.isLt⟩).trans (Matrix.one_apply_ne hne)

/-- A matrix that starts with the identity is in reduced echelon form. -/
theorem isReducedEchelon_of_leftHalf_eq_one (h : leftHalf matrix = 1) :
    IsReducedEchelon matrix := by
  have hentry := apply_castAdd_of_leftHalf_eq_one h
  have hleads := leadsAt_of_leftHalf_eq_one h
  have hdiagonal : ∀ {row col}, LeadsAt (matrix row) col → col = row.castAdd width :=
    fun hcol => hcol.unique (hleads _)
  refine ⟨⟨fun {row col} hcol => ?one, fun {upper lower col} hlt hcol => ?stairs⟩,
    fun row col hcol other hne => ?cleared⟩
  case one => rw [hdiagonal hcol, hentry, Matrix.one_apply_eq]
  case stairs =>
    rw [hdiagonal hcol]
    exact ⟨upper.castAdd width, hlt, hleads upper⟩
  case cleared => rw [hdiagonal hcol, hentry, Matrix.one_apply_ne hne]

/-- A matrix in reduced echelon form starts with the identity if each of its first columns has a
leading one: the rows of these lead from left to right, so that they are all rows in order. -/
theorem IsReducedEchelon.leftHalf_eq_one (h : IsReducedEchelon matrix)
    (hleads : ∀ col : Fin size, ∃ row, LeadsAt (matrix row) (col.castAdd width)) :
    leftHalf matrix = 1 := by
  choose leader hleader using hleads
  have hmono : StrictMono leader := by
    intro col col' hlt
    by_contra hle
    rcases (not_lt.1 hle).eq_or_lt with heq | hgt
    · have hsame := (heq ▸ hleader col').unique (hleader col)
      exact hlt.ne' (Fin.castAdd_injective _ _ hsame)
    · obtain ⟨before, hbefore, hupper⟩ := h.stairs hgt (hleader col)
      obtain rfl := hupper.unique (hleader col')
      exact hlt.not_gt hbefore
  replace hleader : ∀ col : Fin size, LeadsAt (matrix col) (col.castAdd width) := by
    rw [hmono.eq_id] at hleader
    exact hleader
  ext row col
  show matrix row (col.castAdd width) = (1 : Matrix _ _ ℚ) row col
  by_cases hsame : row = col
  · rw [hsame, Matrix.one_apply_eq, h.one (hleader col)]
  · rw [Matrix.one_apply_ne hsame, h.cleared _ _ (hleader col) row hsame]

namespace Grid

variable {grid inverted : Grid size size}

/-! ## The grid beside the identity -/

/-- The left half of two grids side by side is the left one. -/
theorem leftHalf_values_augment (left : Grid size size) (right : Grid size width) :
    leftHalf (left.augment right).values = left.values := by
  ext row col
  show ((left.augment right).entry row (col.castAdd width)).toRat = _
  rw [entry_augment_castAdd, values_apply]

/-- The right half of two grids side by side is the right one. -/
theorem rightHalf_values_augment (left : Grid size size) (right : Grid size width) :
    rightHalf (left.augment right).values = right.values := by
  ext row col
  show ((left.augment right).entry row (col.natAdd size)).toRat = _
  rw [entry_augment_natAdd, values_apply]

/-- The right columns are the right half. -/
theorem values_columns_eq_rightHalf (grid : Grid size (size + size)) :
    (grid.columns size size (Nat.le_refl _)).values = rightHalf grid.values := by
  ext row col
  rw [values_apply, entry_columns]
  rfl

/-- The right half of the reduced form takes the grid to the left half. -/
theorem leftHalf_rref_augment (grid : Grid size size) :
    leftHalf (grid.augment (identity size)).rref.values =
      rightHalf (grid.augment (identity size)).rref.values * grid.values := by
  obtain ⟨factor, -, heq⟩ := (grid.augment (identity size)).rowEquiv_rref
  rw [heq, leftHalf_mul, rightHalf_mul, leftHalf_values_augment, rightHalf_values_augment,
    values_identity, mul_one]

/-! ## The inverse -/

/-- There is an inverse exactly if the reduced form starts with the identity. -/
theorem inverse?_eq_some_iff :
    grid.inverse? = some inverted ↔
      leftHalf (grid.augment (identity size)).rref.values = 1 ∧
        (grid.augment (identity size)).rref.columns size size (Nat.le_refl _) = inverted := by
  have hpivots : ((List.finRange size).all fun col =>
      (grid.augment (identity size)).rref.hasUnitPivot (col.castAdd size)) = true ↔
        leftHalf (grid.augment (identity size)).rref.values = 1 := by
    have hreduced := (grid.augment (identity size)).isReducedEchelon_rref
    simp only [List.all_eq_true, List.mem_finRange, true_imp_iff, hasUnitPivot_rref_iff,
      isLeading_iff]
    constructor
    · intro h
      refine hreduced.leftHalf_eq_one fun col => ?_
      obtain ⟨row, hleads, -⟩ := h col
      exact ⟨row, hleads⟩
    · intro h col
      have hleads := leadsAt_of_leftHalf_eq_one h col
      exact ⟨col, hleads, hreduced.one hleads⟩
  simp only [inverse?, Option.ite_none_right_eq_some, Option.some.injEq, hpivots]

/-- An inverse that is found is one, in lowest terms. -/
theorem inverse?_eq_some (h : grid.inverse? = some inverted) :
    inverted.values * grid.values = 1 ∧ ∀ row col, (inverted.entry row col).IsReduced := by
  obtain ⟨hleft, rfl⟩ := inverse?_eq_some_iff.1 h
  refine ⟨?_, fun row col => ?_⟩
  · rw [values_columns_eq_rightHalf, ← leftHalf_rref_augment, hleft]
  · -- every row has a leading one, so that every row is in lowest terms
    rw [entry_columns]
    exact isReduced_entry_rref (isLeading_iff.2 (leadsAt_of_leftHalf_eq_one hleft row)) _

/-- An inverse is found if there is one: the grid beside the identity is then row equivalent to the
identity beside the inverse. -/
theorem exists_inverse?_eq_some {other : Matrix (Fin size) (Fin size) ℚ}
    (h : grid.values * other = 1) : ∃ inverted, grid.inverse? = some inverted := by
  let paired := (grid.augment (identity size)).values
  have hleft : leftHalf (other * paired) = 1 := by
    rw [leftHalf_mul, leftHalf_values_augment, mul_eq_one_comm.1 h]
  have hpaired : RowEquiv (grid.augment (identity size)).rref.values (other * paired) :=
    (grid.augment (identity size)).rowEquiv_rref.trans
      (RowEquiv.mul_left (.of_mul_eq_one _ (mul_eq_one_comm.1 h)) paired).symm
  have heq := (grid.augment (identity size)).isReducedEchelon_rref.eq_of_rowEquiv
    (isReducedEchelon_of_leftHalf_eq_one hleft) hpaired
  exact ⟨_, inverse?_eq_some_iff.2 ⟨heq ▸ hleft, rfl⟩⟩

end Grid

end MatrixCalc
