import MatrixCalc.Proofs.Failure
import MatrixCalc.Proofs.RatMatrix.Filling

/-!
# Matrix algebra

The operations on matrices are those of linear algebra on the matrices of rational numbers that
they denote, for all sizes and for entries in any terms (`operations_denote`), so that the laws of
linear algebra hold up to `same` (`laws_hold`). A sum, a product and two matrices side by side are
refused if and only if the sizes do not fit together (`add_refused`, `multiply_refused`,
`augment_refused`). The refusal is a report, with one exception: the report of a product names the
sizes, and there is none if a size is too long to be written.
-/

namespace MatrixCalc.RatMatrix

/-- A size that is not negative gives the identity matrix of this size. -/
theorem identityOfSize_natCast (size : Nat) : identityOfSize size = .ok (identity size) := by
  rw [identityOfSize, withSize, if_neg (by simp)]
  rfl

/-! ## Results that denote a matrix -/

section Denotation

variable {rows inner cols width : Nat}

/-- The result is a matrix that denotes a matrix of rational numbers of its size. -/
def Denotes (result : Except Failure RatMatrix) (value : Matrix (Fin rows) (Fin cols) ℚ) : Prop :=
  ∃ grid : Grid rows cols, result = .ok (mk rows cols grid) ∧ grid.values = value

/-- The results are matrices that are the same. -/
def SameResult (left right : Except Failure RatMatrix) : Prop :=
  ∃ m n, left = .ok m ∧ right = .ok n ∧ m.same n = true

/-- Two results that denote one matrix are the same. -/
theorem Denotes.same {left right : Except Failure RatMatrix}
    {value : Matrix (Fin rows) (Fin cols) ℚ} (h : Denotes left value) (h' : Denotes right value) :
    SameResult left right := by
  obtain ⟨grid, rfl, hvalues⟩ := h
  obtain ⟨grid', rfl, hvalues'⟩ := h'
  exact ⟨_, _, rfl, rfl, same_iff.2 (.mk (hvalues.trans hvalues'.symm))⟩

section Operations

variable (left other : Grid rows inner) (right : Grid inner cols) (side : Grid rows width)

/-- A matrix denotes its values. -/
theorem denotes_mk : Denotes (.ok (mk rows inner left)) left.values :=
  ⟨left, rfl, rfl⟩

/-- The identity matrix of a size denotes the identity. -/
theorem denotes_identityOfSize (size : Nat) :
    Denotes (identityOfSize size) (1 : Matrix (Fin size) (Fin size) ℚ) :=
  ⟨Grid.identity size, identityOfSize_natCast size, Grid.values_identity size⟩

/-- Two matrices side by side denote the block matrix. -/
theorem denotes_augment :
    Denotes ((mk rows inner left).augment (mk rows width side))
      (Matrix.reindex (.refl _) finSumFinEquiv (Matrix.fromCols left.values side.values)) :=
  ⟨left.augment side, augment_mk left side, Grid.values_augment left side⟩

/-- A scaled matrix denotes the scalar multiple. -/
theorem denotes_scale (factor : Fraction) :
    Denotes (.ok ((mk rows inner left).scale factor)) (factor.toRat • left.values) :=
  ⟨left.scale factor, rfl, Grid.values_scale factor left⟩

/-- The opposite of a matrix denotes the opposite. -/
theorem denotes_negate : Denotes (.ok (mk rows inner left).negate) (-left.values) :=
  ⟨left.negate, rfl, Grid.values_negate left⟩

end Operations

/-! ## Operations on results -/

variable {x y : Except Failure RatMatrix}

/-- The sum of two results denotes the sum of what they denote. -/
theorem Denotes.add {left right : Matrix (Fin rows) (Fin cols) ℚ} (h : Denotes x left)
    (h' : Denotes y right) : Denotes (do (← x).add (← y)) (left + right) := by
  obtain ⟨grid, rfl, rfl⟩ := h
  obtain ⟨grid', rfl, rfl⟩ := h'
  exact ⟨grid.add grid', add_mk grid grid', Grid.values_add grid grid'⟩

/-- The product of two results denotes the product of what they denote. -/
theorem Denotes.multiply {left : Matrix (Fin rows) (Fin inner) ℚ}
    {right : Matrix (Fin inner) (Fin cols) ℚ} (h : Denotes x left) (h' : Denotes y right) :
    Denotes (do (← x).multiply (← y)) (left * right) := by
  obtain ⟨grid, rfl, rfl⟩ := h
  obtain ⟨grid', rfl, rfl⟩ := h'
  exact ⟨grid.multiply grid', multiply_mk grid grid', Grid.values_multiply grid grid'⟩

/-- The transpose of a result denotes the transpose of what it denotes. -/
theorem Denotes.transpose {value : Matrix (Fin rows) (Fin cols) ℚ} (h : Denotes x value) :
    Denotes (x.map RatMatrix.transpose) value.transpose := by
  obtain ⟨grid, rfl, rfl⟩ := h
  exact ⟨grid.transpose, rfl, Grid.values_transpose grid⟩

/-! ## Operations and laws -/

/-- What the operations make of grids whose sizes fit together. -/
structure OperationsDenote (left other : Grid rows inner) (right : Grid inner cols)
    (side : Grid rows width) (factor : Fraction) : Prop where
  add : Denotes ((mk rows inner left).add (mk rows inner other)) (left.values + other.values)
  multiply : Denotes ((mk rows inner left).multiply (mk inner cols right))
    (left.values * right.values)
  augment : Denotes ((mk rows inner left).augment (mk rows width side))
    (Matrix.reindex (.refl _) finSumFinEquiv (Matrix.fromCols left.values side.values))
  scale : Denotes (.ok ((mk rows inner left).scale factor)) (factor.toRat • left.values)
  negate : Denotes (.ok (mk rows inner left).negate) (-left.values)
  transpose : Denotes (.ok (mk rows inner left).transpose) left.values.transpose

/-- For sizes that fit together, every operation succeeds and denotes the operation of linear
algebra. -/
theorem operations_denote (left other : Grid rows inner) (right : Grid inner cols)
    (side : Grid rows width) (factor : Fraction) :
    OperationsDenote left other right side factor where
  add := (denotes_mk left).add (denotes_mk other)
  multiply := (denotes_mk left).multiply (denotes_mk right)
  augment := denotes_augment left side
  scale := denotes_scale left factor
  negate := denotes_negate left
  transpose := (denotes_mk left).transpose

/-- The laws of linear algebra, for matrices whose sizes fit together. -/
structure Laws (a a' : RatMatrix) (b b' : RatMatrix) (c : RatMatrix) : Prop where
  assoc : SameResult (do (← a.multiply b).multiply c) (do a.multiply (← b.multiply c))
  mul_add : SameResult (do a.multiply (← b.add b')) (do (← a.multiply b).add (← a.multiply b'))
  add_mul : SameResult (do (← a.add a').multiply b) (do (← a.multiply b).add (← a'.multiply b))
  one_mul : SameResult ((identity a.rows).multiply a) (.ok a)
  mul_one : SameResult (a.multiply (identity a.cols)) (.ok a)
  transpose_mul : SameResult ((a.multiply b).map RatMatrix.transpose)
    (b.transpose.multiply a.transpose)

/-- The laws of linear algebra hold for results, since they hold for what these denote. -/
theorem laws_hold (left left' : Grid rows inner) (right right' : Grid inner cols)
    (next : Grid cols width) :
    Laws (mk rows inner left) (mk rows inner left') (mk inner cols right) (mk inner cols right')
      (mk cols width next) := by
  have ha := denotes_mk left
  have ha' := denotes_mk left'
  have hb := denotes_mk right
  have hb' := denotes_mk right'
  have hc := denotes_mk next
  have hone (size : Nat) := denotes_mk (Grid.identity size)
  simp only [Grid.values_identity] at hone
  constructor
  case assoc =>
    refine ((ha.multiply hb).multiply hc).same ?_
    rw [Matrix.mul_assoc]
    exact ha.multiply (hb.multiply hc)
  case mul_add =>
    refine (ha.multiply (hb.add hb')).same ?_
    rw [Matrix.mul_add]
    exact (ha.multiply hb).add (ha.multiply hb')
  case add_mul =>
    refine ((ha.add ha').multiply hb).same ?_
    rw [Matrix.add_mul]
    exact (ha.multiply hb).add (ha'.multiply hb)
  case one_mul =>
    refine ((hone rows).multiply ha).same ?_
    rw [Matrix.one_mul]
    exact ha
  case mul_one =>
    refine (ha.multiply (hone inner)).same ?_
    rw [Matrix.mul_one]
    exact ha
  case transpose_mul =>
    refine (ha.multiply hb).transpose.same ?_
    rw [Matrix.transpose_mul]
    exact hb.transpose.multiply ha.transpose

end Denotation

/-! ## Sizes that do not fit -/

/-- A result is refused unless something about the sizes holds, and then with a report about
them. -/
structure RefusedUnless (result : Except Failure RatMatrix) (fitting : Prop) : Prop where
  refused_iff : (∃ failure, result = .error failure) ↔ ¬ fitting
  reported : ∀ failure, result = .error failure → failure.ReportOf [.dimension]

/-- A matrix is a right result if the sizes fit together. -/
theorem refusedUnless_ok (m : RatMatrix) {fitting : Prop} (h : fitting) :
    RefusedUnless (.ok m) fitting where
  refused_iff := by simp [h]
  reported _ hrefused := by cases hrefused

/-- A report on the sizes that names no numbers is a right result if they do not fit together. -/
theorem refusedUnless_because {cause : Cause} {fitting : Prop} (h : ¬ fitting)
    (hnumbers : cause.numbers = []) (hclass : cause.reportClass = .dimension) :
    RefusedUnless (.error (Failure.because cause)) fitting where
  refused_iff := by simp [h]
  reported failure hrefused := by
    obtain rfl := Except.error.inj hrefused
    exact Failure.reportOf_because cause hnumbers (List.mem_singleton.2 hclass)

variable (a b : RatMatrix)

/-- A sum is refused exactly if the sizes differ. -/
theorem add_refused : RefusedUnless (a.add b) (a.rows = b.rows ∧ a.cols = b.cols) := by
  unfold add
  split
  · next h => exact refusedUnless_ok _ h
  · next h => exact refusedUnless_because h rfl rfl

/-- Putting matrices side by side is refused exactly if the numbers of rows differ. -/
theorem augment_refused : RefusedUnless (a.augment b) (a.rows = b.rows) := by
  unfold augment
  split
  · next h => exact refusedUnless_ok _ h
  · next h => exact refusedUnless_because h rfl rfl

/-- The sizes in the report of a product can be written. -/
def SizesFit (a b : RatMatrix) : Prop :=
  ∀ size ∈ [a.rows, a.cols, b.rows, b.cols], Numeral.fits size = true

instance : Decidable (SizesFit a b) :=
  inferInstanceAs (Decidable (∀ size ∈ [a.rows, a.cols, b.rows, b.cols], _))

/-- A product of sizes that do not fit is refused with a report, or with a fault if a size in the
report cannot be written. -/
structure MultiplyRefused (a b : RatMatrix) : Prop where
  refused_iff : (∃ failure, a.multiply b = .error failure) ↔ a.cols ≠ b.rows
  reported_iff : (∃ failure, a.multiply b = .error failure ∧ failure.ReportOf [.dimension]) ↔
    a.cols ≠ b.rows ∧ SizesFit a b
  fault_iff : (∃ fault, a.multiply b = .error (.fault fault)) ↔ a.cols ≠ b.rows ∧ ¬ SizesFit a b
  fault_eq : ∀ fault, a.multiply b = .error (.fault fault) → fault = .tooLongToWrite

/-- A product of matrices that do not fit together is reported with both sizes, if these can be
written. -/
theorem multiply_of_ne {a b : RatMatrix} (h : a.cols ≠ b.rows) :
    a.multiply b = .error
      (if SizesFit a b then .report ⟨.productSizes a.rows a.cols b.rows b.cols, none⟩
      else .fault .tooLongToWrite) := by
  have hsizes : SizesFit a b ↔
      (Cause.productSizes a.rows a.cols b.rows b.cols).numbers.all Numeral.fits = true := by
    simp [SizesFit, Cause.numbers]
  rw [multiply, dif_neg h, Failure.because]
  simp only [hsizes]

/-- A product is refused exactly if the one has not as many columns as the other has rows. -/
theorem multiply_refused : MultiplyRefused a b := by
  by_cases h : a.cols = b.rows
  · have hok : ∃ m, a.multiply b = .ok m := ⟨_, dif_pos h⟩
    obtain ⟨m, hok⟩ := hok
    constructor <;> simp [hok, h]
  · have hresult := multiply_of_ne h
    by_cases hsizes : SizesFit a b
    · rw [if_pos hsizes] at hresult
      constructor <;> simp [hresult, h, hsizes, Failure.ReportOf, Cause.reportClass]
    · rw [if_neg hsizes] at hresult
      constructor <;> simp [hresult, h, hsizes, Failure.ReportOf]

/-- A matrix without rows, and with as many columns as can just be written, is doubled in width:
the report of a product of these has no wording. -/
theorem multiply_tooLongToWrite :
    let narrow := zeros 0 (10 ^ Numeral.digitLimit - 1)
    ∃ wide, narrow.augment narrow = .ok wide ∧ wide.cols ≠ narrow.rows ∧
      wide.multiply narrow = .error (.fault .tooLongToWrite) := by
  intro narrow
  refine ⟨_, dif_pos rfl, by decide +kernel, ?_⟩
  rw [multiply_of_ne (by decide +kernel), if_neg (by decide +kernel)]

/-! ## The operations as a whole -/

/-- The programs that look up rows, columns and entries by number come to the operations. -/
structure ByNumber (a b : RatMatrix) (factor : Fraction) (size : Nat) : Prop where
  add : a.addByEntries b = a.add b
  multiply : a.multiplyByNumber b = a.multiply b
  augment : a.augmentByNumber b = a.augment b
  scale : a.scaleByNumber factor = .ok (a.scale factor)
  negate : a.scaleByNumber (.ofInt (-1)) = .ok a.negate
  transpose : a.transposeByNumber = .ok a.transpose
  identity : identityByNumber size = identityOfSize size

/-- The programs that count rows and columns from one are the operations. -/
theorem byNumber_eq (a b : RatMatrix) (factor : Fraction) (size : Nat) :
    ByNumber a b factor size where
  add := addByEntries_eq a b
  multiply := multiplyByNumber_eq a b
  augment := augmentByNumber_eq a b
  scale := scaleByNumber_eq factor a
  negate := scaleByNumber_eq (.ofInt (-1)) a
  transpose := transposeByNumber_eq a
  identity := (identityByNumber_eq size).trans (identityOfSize_natCast size).symm

/-- The operations on matrices denote those of linear algebra and have their laws, for all sizes
and all entries. A sum is refused if and only if the sizes differ, two matrices side by side if and
only if the numbers of rows do, and a product if and only if there are not as many columns on the
left as rows on the right. All refusals are reports about sizes, but for a product of which a size
is too long to be written. Looking up rows, columns and entries by number comes to the same and
never fails in another way. -/
theorem algebra_exact (a b : RatMatrix) (factor : Fraction) (size : Nat) :
    RefusedUnless (a.add b) (a.rows = b.rows ∧ a.cols = b.cols) ∧
    RefusedUnless (a.augment b) (a.rows = b.rows) ∧ MultiplyRefused a b ∧
    ByNumber a b factor size ∧
    Denotes (identityOfSize size) (1 : Matrix (Fin size) (Fin size) ℚ) ∧
    (∀ {rows inner cols width : Nat} (left left' : Grid rows inner) (right right' : Grid inner cols)
      (side : Grid rows width) (next : Grid cols width),
      OperationsDenote left left' right side factor ∧
        Laws (mk rows inner left) (mk rows inner left') (mk inner cols right) (mk inner cols right')
          (mk cols width next)) :=
  ⟨add_refused a b, augment_refused a b, multiply_refused a b, byNumber_eq a b factor size,
    denotes_identityOfSize size, fun left left' right right' side next =>
      ⟨operations_denote left left' right side factor, laws_hold left left' right right' next⟩⟩

end MatrixCalc.RatMatrix
