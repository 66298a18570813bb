import MatrixCalc.Proofs.Value

/-!
# Values of opposite sign

`Value.Opposed` relates two scalars or two matrices of which one is the other with the opposite
sign. It goes through products, and through quotients on either side of the division; and a value
is taken away by adding its opposite (`Opposed.combine_sub`).
-/

namespace MatrixCalc

/-- The reciprocals of opposite fractions are opposite, or both are zero and have none. -/
theorem Fraction.reciprocal_opposed {a b : Fraction} (h : b.toRat = -a.toRat) :
    Agree (fun inverse inverse' => inverse'.toRat = -inverse.toRat) a.reciprocal b.reciprocal := by
  have hzero : b.isZero = a.isZero := by
    rw [Bool.eq_iff_iff, isZero_iff, isZero_iff, h, neg_eq_zero]
  unfold Fraction.reciprocal
  rw [hzero]
  split
  · exact .error _
  · refine .ok ?_
    rw [toRat_inv, toRat_inv, h, inv_neg]

namespace RatMatrix

/-- Two matrices of one size whose values have opposite signs. -/
inductive Opposed : RatMatrix → RatMatrix → Prop
  | mk {rows cols : Nat} {left right : Grid rows cols} (h : right.values = -left.values) :
      Opposed ⟨rows, cols, left⟩ ⟨rows, cols, right⟩

/-- Two matrices are opposed exactly if the one is equivalent to the opposite of the other. -/
theorem opposed_iff {a b : RatMatrix} : a.Opposed b ↔ b.Equiv a.negate := by
  constructor
  · rintro ⟨h⟩
    exact .mk (by rw [h, Grid.values_negate])
  · intro h
    obtain ⟨rows, cols, left⟩ := a
    obtain @⟨_, _, right, _, hvalues⟩ := h
    exact .mk (by rw [hvalues, Grid.values_negate])

namespace Opposed

variable {a b : RatMatrix}

/-- Multiples of opposed matrices are opposed. -/
theorem scale (h : a.Opposed b) (factor : Fraction) :
    (a.scale factor).Opposed (b.scale factor) := by
  obtain ⟨hvalues⟩ := h
  exact .mk (by rw [Grid.values_scale, Grid.values_scale, hvalues, smul_neg])

/-- Multiples of one matrix by opposed numbers are opposed. -/
theorem scale_factor {factor factor' : Fraction} (h : factor'.toRat = -factor.toRat)
    (a : RatMatrix) : (a.scale factor).Opposed (a.scale factor') :=
  .mk (by rw [Grid.values_scale, Grid.values_scale, h, neg_smul])

/-- Products are opposed if their left factors are. -/
theorem multiply_left (h : a.Opposed b) (c : RatMatrix) :
    Agree Opposed (a.multiply c) (b.multiply c) := by
  obtain @⟨rows, inner, left, right, hvalues⟩ := h
  obtain ⟨inner', cols, grid⟩ := c
  by_cases hinner : inner = inner'
  · subst hinner
    rw [multiply_mk, multiply_mk]
    refine .ok (.mk ?_)
    rw [Grid.values_multiply, Grid.values_multiply, hvalues, Matrix.neg_mul]
  · simp only [RatMatrix.multiply, hinner, dif_neg, not_false_iff]
    exact .error _

/-- Products are opposed if their right factors are. -/
theorem multiply_right (h : a.Opposed b) (c : RatMatrix) :
    Agree Opposed (c.multiply a) (c.multiply b) := by
  obtain @⟨inner', cols, left, right, hvalues⟩ := h
  obtain ⟨rows, inner, grid⟩ := c
  by_cases hinner : inner = inner'
  · subst hinner
    rw [multiply_mk, multiply_mk]
    refine .ok (.mk ?_)
    rw [Grid.values_multiply, Grid.values_multiply, hvalues, Matrix.mul_neg]
  · simp only [RatMatrix.multiply, hinner, dif_neg, not_false_iff]
    exact .error _

/-- The opposite of a matrix is equivalent to every matrix opposed to it. -/
theorem equiv_negate (h : a.Opposed b) : a.negate.Equiv b :=
  (opposed_iff.1 h).symm

end Opposed

end RatMatrix

namespace Value

/-- Two values of one kind of which one is the other with the opposite sign. -/
inductive Opposed : Value → Value → Prop
  | scalar {a b : Fraction} (h : b.toRat = -a.toRat) : Opposed (.scalar a) (.scalar b)
  | matrix {a b : RatMatrix} (h : a.Opposed b) : Opposed (.matrix a) (.matrix b)

namespace Opposed

variable {a b : Value}

/-- A value is opposed to its opposite. -/
theorem negate_right (a : Value) : a.Opposed a.negate := by
  cases a with
  | scalar value => exact .scalar (by simp)
  | matrix value => exact .matrix (RatMatrix.opposed_iff.2 (.refl _))

/-- The opposite of a value is opposed to it. -/
theorem negate_left (a : Value) : a.negate.Opposed a := by
  cases a with
  | scalar value => exact .scalar (by simp)
  | matrix value => exact .matrix (.mk (by rw [Grid.values_negate, neg_neg]))

/-- The value with the opposite sign is the one that `negate` gives. -/
theorem equiv_negate (h : a.Opposed b) : b.Equiv a.negate := by
  cases h with
  | scalar hscalars => exact .scalar (Fraction.equiv_iff.2 (by simp [hscalars]))
  | matrix hmatrices => exact .of_matrices (RatMatrix.opposed_iff.1 hmatrices)

/-! ## Products and quotients -/

/-- Products of values are opposed if their left factors are, or they fail in the same way. -/
theorem multiply_left (h : a.Opposed b) (c : Value) :
    Agree Opposed (a.multiply c) (b.multiply c) := by
  cases h with
  | scalar hscalars =>
    cases c with
    | scalar factor => exact .ok (.scalar (by simp [hscalars]))
    | matrix m => exact .ok (.matrix (.scale_factor hscalars m))
  | matrix hmatrices =>
    cases c with
    | scalar factor => exact .ok (.matrix (hmatrices.scale factor))
    | matrix m => exact (hmatrices.multiply_left m).map fun _ _ => .matrix

/-- Products of values are opposed if their right factors are, or they fail in the same way. -/
theorem multiply_right (h : a.Opposed b) (c : Value) :
    Agree Opposed (c.multiply a) (c.multiply b) := by
  cases h with
  | scalar hscalars =>
    cases c with
    | scalar factor => exact .ok (.scalar (by simp [hscalars]))
    | matrix m => exact .ok (.matrix (.scale_factor hscalars m))
  | matrix hmatrices =>
    cases c with
    | scalar factor => exact .ok (.matrix (hmatrices.scale factor))
    | matrix m => exact (hmatrices.multiply_right m).map fun _ _ => .matrix

/-- Quotients are opposed if their dividends are, or they fail in the same way. -/
theorem divide_left (h : a.Opposed b) (c : Value) :
    Agree Opposed (a.divide c) (b.divide c) := by
  cases h with
  | scalar hscalars =>
    cases c with
    | scalar divisor =>
      exact .bind_same divisor.reciprocal fun factor => .ok (.scalar (by simp [hscalars]))
    | matrix m => exact .error _
  | matrix hmatrices =>
    cases c with
    | scalar divisor =>
      exact .bind_same divisor.reciprocal fun factor => .ok (.matrix (hmatrices.scale factor))
    | matrix m => exact .error _

/-- Quotients are opposed if their divisors are, or they fail in the same way. -/
theorem divide_right (h : a.Opposed b) (c : Value) :
    Agree Opposed (c.divide a) (c.divide b) := by
  cases h with
  | scalar hscalars =>
    cases c with
    | scalar value =>
      exact (Fraction.reciprocal_opposed hscalars).bind fun _ _ hfactor =>
        .ok (.scalar (by simp [hfactor]))
    | matrix m =>
      exact (Fraction.reciprocal_opposed hscalars).bind fun _ _ hfactor =>
        .ok (.matrix (.scale_factor hfactor m))
  | matrix hmatrices => cases c <;> exact .error _

/-! ## Sums -/

/-- To take a value away is to add its opposite. -/
theorem combine_sub (h : a.Opposed b) (c : Value) :
    Agree Equiv (c.combine .sub a) (c.combine .add b) := by
  cases h with
  | @scalar a b hscalars =>
    cases c with
    | scalar value =>
      exact .ok (.scalar (Fraction.equiv_iff.2 (by simp [hscalars])))
    | matrix m => exact .error _
  | @matrix a b hmatrices =>
    cases c with
    | scalar value => exact .error _
    | matrix m =>
      have hequiv := hmatrices.equiv_negate
      simp only [Value.combine, ← hequiv.rows_eq, ← hequiv.cols_eq, RatMatrix.negate]
      split
      · exact ((RatMatrix.Equiv.refl m).add hequiv).map fun _ _ => .of_matrices
      · exact .error _

end Opposed

end Value

end MatrixCalc
