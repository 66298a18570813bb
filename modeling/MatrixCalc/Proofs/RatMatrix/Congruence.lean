import MatrixCalc.Proofs.Agreement
import MatrixCalc.Proofs.Grid.Congruence
import MatrixCalc.RatMatrix.Text

/-!
# Matrix operations depend on values only

`RatMatrix.Equiv` relates matrices of one size that denote the same matrix of rational numbers;
it is what `RatMatrix.same` decides. The operations give equivalent results, or the same failure,
for equivalent matrices, and equivalent matrices look the same when they are drawn.
-/

namespace MatrixCalc.RatMatrix

/-- Two matrices of one size with the same values. -/
inductive Equiv : RatMatrix → RatMatrix → Prop
  | mk {rows cols : Nat} {left right : Grid rows cols} (h : left.values = right.values) :
      Equiv ⟨rows, cols, left⟩ ⟨rows, cols, right⟩

/-! ## The test -/

/-- Comparing two grids entry by entry decides whether they denote one matrix. -/
theorem all_equiv_toList_iff {rows cols : Nat} {left right : Grid rows cols} :
    ((left.toList.zip right.toList).all fun pair => decide (pair.1.Equiv pair.2)) = true ↔
      left.values = right.values := by
  rw [Grid.values_eq_iff, List.all_eq_true]
  constructor
  · intro h row col
    have hmem : (left.entry row col, right.entry row col) ∈ left.toList.zip right.toList := by
      refine List.mem_iff_getElem.2 ⟨Grid.place row col, by simp [Grid.toList], ?_⟩
      simp [Grid.toList, Grid.entry]
    exact Fraction.equiv_iff.1 (of_decide_eq_true (h _ hmem))
  · intro h pair hpair
    obtain ⟨index, hindex, rfl⟩ := List.mem_iff_getElem.1 hpair
    have hlt : index < rows * cols := by simpa [Grid.toList] using hindex
    have hvalues := h (Grid.placeRow ⟨index, hlt⟩) (Grid.placeCol ⟨index, hlt⟩)
    refine decide_eq_true (Fraction.equiv_iff.2 ?_)
    simpa [Grid.toList, Grid.entry] using hvalues

/-- Matrices are the same exactly if they are equivalent. -/
theorem same_iff {a b : RatMatrix} : a.same b = true ↔ a.Equiv b := by
  constructor
  · intro h
    obtain ⟨rows, cols, left⟩ := a
    obtain ⟨rows', cols', right⟩ := b
    simp only [same, Bool.and_eq_true_iff, decide_eq_true_iff] at h
    obtain ⟨⟨rfl, rfl⟩, hentries⟩ := h
    exact .mk (all_equiv_toList_iff.1 hentries)
  · rintro ⟨h⟩
    simp only [same, Bool.and_eq_true_iff, decide_eq_true_iff, true_and]
    exact all_equiv_toList_iff.2 h

namespace Equiv

variable {a b c d : RatMatrix}

/-- A matrix is equivalent to itself, in the terms in which it is stored. -/
theorem refl (a : RatMatrix) : a.Equiv a :=
  .mk rfl

/-- Equivalence of matrices goes both ways. -/
theorem symm (h : a.Equiv b) : b.Equiv a := by
  obtain ⟨hvalues⟩ := h
  exact .mk hvalues.symm

/-- Equivalence of matrices goes through a matrix between them. -/
theorem trans (h : a.Equiv b) (h' : b.Equiv c) : a.Equiv c := by
  obtain ⟨hvalues⟩ := h
  obtain ⟨hvalues'⟩ := h'
  exact .mk (hvalues.trans hvalues')

/-- Equivalent matrices have the same number of rows. -/
theorem rows_eq (h : a.Equiv b) : a.rows = b.rows := by
  obtain ⟨-⟩ := h
  rfl

/-- Equivalent matrices have the same number of columns. -/
theorem cols_eq (h : a.Equiv b) : a.cols = b.cols := by
  obtain ⟨-⟩ := h
  rfl

/-- Equivalent matrices are the same as the same matrices. -/
theorem same_eq (h : a.Equiv b) (c : RatMatrix) : a.same c = b.same c := by
  rw [Bool.eq_iff_iff, same_iff, same_iff]
  exact ⟨h.symm.trans, h.trans⟩

/-! ## Operations that always succeed -/

/-- Equivalent matrices scaled by equal numbers are equivalent. -/
theorem scale (h : a.Equiv b) {factor factor' : Fraction} (hfactor : factor.Equiv factor') :
    (a.scale factor).Equiv (b.scale factor') := by
  obtain ⟨hvalues⟩ := h
  refine .mk ?_
  rw [Grid.values_scale, Grid.values_scale, hvalues, Fraction.equiv_iff.1 hfactor]

/-- Equivalent matrices have equivalent opposites. -/
theorem negate (h : a.Equiv b) : a.negate.Equiv b.negate := by
  obtain ⟨hvalues⟩ := h
  refine .mk ?_
  rw [Grid.values_negate, Grid.values_negate, hvalues]

/-- Equivalent matrices have equivalent transposes. -/
theorem transpose (h : a.Equiv b) : a.transpose.Equiv b.transpose := by
  obtain ⟨hvalues⟩ := h
  refine .mk ?_
  rw [Grid.values_transpose, Grid.values_transpose, hvalues]

/-- Equivalent matrices have equivalent row echelon forms. -/
theorem ref (h : a.Equiv b) : a.ref.Equiv b.ref := by
  obtain ⟨hvalues⟩ := h
  exact .mk (Grid.values_ref_congr hvalues)

/-- Equivalent matrices have equivalent reduced row echelon forms. -/
theorem rref (h : a.Equiv b) : a.rref.Equiv b.rref := by
  obtain ⟨hvalues⟩ := h
  exact .mk (Grid.values_rref_congr hvalues)

end Equiv

/-! ## Operations on matrices that fit together -/

/-- A grid that has the right size already is taken as it is. -/
@[simp] theorem castGrid_rfl {rows cols : Nat} (grid : Grid rows cols) :
    castGrid rfl rfl grid = grid :=
  grid.ofFn_entry

/-- Matrices of one size are added. -/
theorem add_mk {rows cols : Nat} (left right : Grid rows cols) :
    (mk rows cols left).add (mk rows cols right) = .ok (mk rows cols (left.add right)) := by
  simp only [add, and_self, dif_pos, castGrid_rfl]

/-- A matrix is multiplied by one that has as many rows as it has columns. -/
theorem multiply_mk {rows inner cols : Nat} (left : Grid rows inner) (right : Grid inner cols) :
    (mk rows inner left).multiply (mk inner cols right) =
      .ok (mk rows cols (left.multiply right)) := by
  simp only [multiply, dif_pos, castGrid_rfl]

/-- Matrices with the same number of rows are put side by side. -/
theorem augment_mk {rows cols width : Nat} (left : Grid rows cols) (right : Grid rows width) :
    (mk rows cols left).augment (mk rows width right) =
      .ok (mk rows (cols + width) (left.augment right)) := by
  simp only [augment, dif_pos, castGrid_rfl]

namespace Equiv

variable {a b c d : RatMatrix}

/-- Sums of equivalent matrices are equivalent, or both sizes are refused. -/
theorem add (h : a.Equiv b) (h' : c.Equiv d) : Agree Equiv (a.add c) (b.add d) := by
  obtain @⟨rows, cols, left, right, hvalues⟩ := h
  obtain @⟨rows', cols', left', right', hvalues'⟩ := h'
  by_cases hsizes : rows = rows' ∧ cols = cols'
  · obtain ⟨rfl, rfl⟩ := hsizes
    rw [add_mk, add_mk]
    refine .ok (.mk ?_)
    rw [Grid.values_add, Grid.values_add, hvalues, hvalues']
  · simp only [RatMatrix.add, hsizes, dif_neg, not_false_iff]
    exact .error _

/-- Products of equivalent matrices are equivalent, or both sizes are refused. -/
theorem multiply (h : a.Equiv b) (h' : c.Equiv d) :
    Agree Equiv (a.multiply c) (b.multiply d) := by
  obtain @⟨rows, inner, left, right, hvalues⟩ := h
  obtain @⟨inner', cols, left', right', hvalues'⟩ := h'
  by_cases hinner : inner = inner'
  · subst hinner
    rw [multiply_mk, multiply_mk]
    refine .ok (.mk ?_)
    rw [Grid.values_multiply, Grid.values_multiply, hvalues, hvalues']
  · simp only [RatMatrix.multiply, hinner, dif_neg, not_false_iff]
    exact .error _

/-- Equivalent matrices put side by side are equivalent, or both sizes are refused. -/
theorem augment (h : a.Equiv b) (h' : c.Equiv d) : Agree Equiv (a.augment c) (b.augment d) := by
  obtain @⟨rows, cols, left, right, hvalues⟩ := h
  obtain @⟨rows', cols', left', right', hvalues'⟩ := h'
  by_cases hrows : rows = rows'
  · subst hrows
    rw [augment_mk, augment_mk]
    exact .ok (.mk (Grid.values_augment_congr hvalues hvalues'))
  · simp only [RatMatrix.augment, hrows, dif_neg, not_false_iff]
    exact .error _

/-- Equivalent matrices have equivalent inverses, or fail in the same way. -/
theorem inverse (h : a.Equiv b) : Agree Equiv a.inverse b.inverse := by
  obtain @⟨rows, cols, left, right, hvalues⟩ := h
  by_cases hsquare : rows = cols
  · subst hsquare
    simp only [RatMatrix.inverse, dif_pos, castGrid_rfl]
    have hinverses := Grid.inverse?_congr hvalues
    generalize left.inverse? = found at hinverses ⊢
    generalize right.inverse? = found' at hinverses ⊢
    cases hinverses with
    | some hgrids => exact .ok (.mk hgrids)
    | none => exact .error _
  · simp only [RatMatrix.inverse, hsquare, dif_neg, not_false_iff]
    exact .error _

end Equiv

/-! ## Drawing -/

/-- In lowest terms there is one matrix for each size and values. -/
theorem reduce_eq_reduce_iff {a b : RatMatrix} : a.reduce = b.reduce ↔ a.Equiv b := by
  constructor
  · intro h
    obtain ⟨rows, cols, left⟩ := a
    obtain ⟨rows', cols', right⟩ := b
    simp only [reduce, mk.injEq] at h
    obtain ⟨rfl, rfl, hgrids⟩ := h
    exact .mk (Grid.map_reduce_eq_iff.1 (eq_of_heq hgrids))
  · rintro ⟨h⟩
    simp only [reduce, Grid.map_reduce_eq_iff.2 h]

/-- A box shows entries in lowest terms, so it is also the box of the reduced matrix. -/
theorem box_reduce (m : RatMatrix) : m.reduce.box = m.box := by
  obtain ⟨rows, cols, grid⟩ := m
  -- the box is made of the texts of the entries, and only those look at the entries
  have hcell : (mk rows cols (grid.map Fraction.reduce)).cell = (mk rows cols grid).cell := by
    funext row col
    show ((grid.map Fraction.reduce).entry row col).reduce.text = _
    rw [Grid.entry_map, Fraction.reduce_reduce]
    rfl
  have hwidth : (mk rows cols (grid.map Fraction.reduce)).columnWidth =
      (mk rows cols grid).columnWidth := by
    funext col
    simp only [columnWidth, hcell]
  simp only [reduce, box, boxLines, columnWidths, rowCells, hcell, hwidth]
  rfl

/-- Equivalent matrices are drawn in the same way. -/
theorem Equiv.render_eq {a b : RatMatrix} (h : a.Equiv b) : a.render = b.render := by
  have hfits : a.boxFits = b.boxFits := by
    simp only [boxFits, sizeFits, h.rows_eq, h.cols_eq, reduce_eq_reduce_iff.2 h]
  rw [render, render, hfits, ← box_reduce a, ← box_reduce b, reduce_eq_reduce_iff.2 h]

end MatrixCalc.RatMatrix
