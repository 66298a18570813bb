import MatrixCalc.Builtin
import MatrixCalc.Evaluation
import MatrixCalc.Proofs.RatMatrix.Congruence
import Mathlib.Data.List.Forall2

/-!
# Operations on values depend on values only

`Value.Equiv` relates scalars that are equal as numbers and matrices that are the same, in
whatever terms they are stored. Each operation of the language gives equivalent results for
equivalent values, or the same failure.
-/

namespace MatrixCalc

namespace Value

/-- Two values of one kind that are equal as numbers or as matrices. -/
inductive Equiv : Value → Value → Prop
  | scalar {a b : Fraction} (h : a.Equiv b) : Equiv (.scalar a) (.scalar b)
  | matrix {a b : RatMatrix} (h : a.same b = true) : Equiv (.matrix a) (.matrix b)

/-- A value of the scalar kind is a fraction. -/
theorem kind_eq_scalar_iff {value : Value} : value.kind = .scalar ↔ ∃ a, value = .scalar a := by
  cases value <;> simp [kind]

/-- A value of the matrix kind is a matrix. -/
theorem kind_eq_matrix_iff {value : Value} : value.kind = .matrix ↔ ∃ m, value = .matrix m := by
  cases value <;> simp [kind]

end Value

/-- Equal numbers have equal reciprocals, or both of them have none. -/
theorem Fraction.Equiv.reciprocal {a b : Fraction} (h : a.Equiv b) :
    Agree Fraction.Equiv a.reciprocal b.reciprocal := by
  unfold Fraction.reciprocal
  rw [h.isZero_eq]
  split
  · exact .error _
  · refine .ok (Fraction.equiv_iff.2 ?_)
    rw [Fraction.toRat_inv, Fraction.toRat_inv, Fraction.equiv_iff.1 h]

/-- Products of equal numbers are equal. -/
theorem Fraction.Equiv.mul {a b c d : Fraction} (h : a.Equiv b) (h' : c.Equiv d) :
    (a.mul c).Equiv (b.mul d) := by
  rw [Fraction.equiv_iff] at h h' ⊢
  rw [Fraction.toRat_mul, Fraction.toRat_mul, h, h']

/-- Equal numbers are equal in lowest terms too. -/
theorem Fraction.Equiv.reduce {a b : Fraction} (h : a.Equiv b) : a.reduce.Equiv b.reduce := by
  rw [Fraction.equiv_iff] at h ⊢
  rw [Fraction.toRat_reduce, Fraction.toRat_reduce, h]

namespace Value.Equiv

variable {a b c d : Value}

/-- Equivalent values are of one kind. -/
theorem kind_eq (h : a.Equiv b) : a.kind = b.kind := by
  cases h <;> rfl

/-- A value is equivalent to itself, in the terms in which it is stored. -/
theorem refl (a : Value) : a.Equiv a := by
  cases a with
  | scalar value => exact .scalar rfl
  | matrix value => exact .matrix (RatMatrix.same_iff.2 (.refl value))

/-- Equivalence of values goes through a value between them. -/
theorem trans (h : a.Equiv b) (h' : b.Equiv c) : a.Equiv c := by
  cases h with
  | scalar hscalars =>
    obtain ⟨hmore⟩ := h'
    exact .scalar (Fraction.equiv_iff.2 ((Fraction.equiv_iff.1 hscalars).trans
      (Fraction.equiv_iff.1 hmore)))
  | matrix hmatrices =>
    obtain _ | ⟨hmore⟩ := h'
    exact .matrix (RatMatrix.same_iff.2 ((RatMatrix.same_iff.1 hmatrices).trans
      (RatMatrix.same_iff.1 hmore)))

/-- Only a scalar is equivalent to a scalar, and it is the same number. -/
theorem exists_of_scalar {a : Fraction} {value : Value} (h : (Value.scalar a).Equiv value) :
    ∃ b, value = .scalar b ∧ a.Equiv b := by
  cases h with
  | scalar hscalars => exact ⟨_, rfl, hscalars⟩

/-- Equivalent matrices are equivalent as values. -/
theorem of_matrices {m n : RatMatrix} (h : m.Equiv n) : (Value.matrix m).Equiv (.matrix n) :=
  .matrix (RatMatrix.same_iff.2 h)

/-- Only a matrix is equivalent to a matrix. -/
theorem exists_of_matrix {m : RatMatrix} {value : Value} (h : (Value.matrix m).Equiv value) :
    ∃ n, value = .matrix n ∧ m.Equiv n := by
  cases h with
  | matrix hmatrices => exact ⟨_, rfl, RatMatrix.same_iff.1 hmatrices⟩

/-! ## Operators -/

/-- Equivalent values have equivalent opposites. -/
theorem negate (h : a.Equiv b) : a.negate.Equiv b.negate := by
  cases h with
  | scalar hscalars => exact .scalar (hscalars.mul rfl)
  | matrix hmatrices => exact of_matrices (RatMatrix.same_iff.1 hmatrices).negate

/-- Products of equivalent values are equivalent, or fail for the same reason. -/
theorem multiply (h : a.Equiv b) (h' : c.Equiv d) : Agree Equiv (a.multiply c) (b.multiply d) := by
  cases h with
  | scalar hleft =>
    cases h' with
    | scalar hright => exact .ok (.scalar (hleft.mul hright).reduce)
    | matrix hright => exact .ok (of_matrices ((RatMatrix.same_iff.1 hright).scale hleft))
  | matrix hleft =>
    rw [RatMatrix.same_iff] at hleft
    cases h' with
    | scalar hright => exact .ok (of_matrices (hleft.scale hright))
    | matrix hright =>
      exact (hleft.multiply (RatMatrix.same_iff.1 hright)).map fun _ _ => of_matrices

/-- Quotients of equivalent values are equivalent, or fail for the same reason. -/
theorem divide (h : a.Equiv b) (h' : c.Equiv d) : Agree Equiv (a.divide c) (b.divide d) := by
  cases h with
  | scalar hleft =>
    cases h' with
    | scalar hright =>
      exact hright.reciprocal.bind fun _ _ hfactor => .ok (.scalar (hleft.mul hfactor).reduce)
    | matrix hright => exact .error _
  | matrix hleft =>
    rw [RatMatrix.same_iff] at hleft
    cases h' with
    | scalar hright =>
      exact hright.reciprocal.bind fun _ _ hfactor => .ok (of_matrices (hleft.scale hfactor))
    | matrix hright => exact .error _

/-- Sums and differences of equivalent values are equivalent, or fail for the same reason. -/
theorem combine (h : a.Equiv b) (h' : c.Equiv d) (op : AddOp) :
    Agree Equiv (a.combine op c) (b.combine op d) := by
  cases h with
  | scalar hleft =>
    cases h' with
    | scalar hright =>
      rw [Fraction.equiv_iff] at hleft hright
      refine .ok (.scalar (Fraction.equiv_iff.2 ?_))
      cases op <;> simp [hleft, hright]
    | matrix hright => exact .error _
  | matrix hleft =>
    rw [RatMatrix.same_iff] at hleft
    cases h' with
    | scalar hright => exact .error _
    | matrix hright =>
      rw [RatMatrix.same_iff] at hright
      simp only [Value.combine, hleft.rows_eq, hleft.cols_eq, hright.rows_eq, hright.cols_eq]
      split
      · refine Agree.map (R := RatMatrix.Equiv) ?_ fun _ _ => of_matrices
        cases op with
        | add => exact hleft.add hright
        | sub => exact hleft.add hright.negate
      · exact .error _

/-! ## Functions -/

/-- Pairwise equivalent arguments are pairwise of one kind. -/
theorem map_kind_eq {values values' : List Value} (h : List.Forall₂ Equiv values values') :
    values.map kind = values'.map kind := by
  induction h with
  | nil => rfl
  | cons hfirst _ ih => rw [List.map_cons, List.map_cons, hfirst.kind_eq, ih]

end Value.Equiv

namespace Builtin

/-- Arguments pass the check exactly if their kinds are those of the signature. -/
theorem check_eq_ok_iff {builtin : Builtin} {values : List Value} :
    builtin.check values = .ok () ↔ values.map Value.kind = builtin.signature := by
  constructor
  · intro h
    by_contra hkinds
    simp only [check, ne_eq, hkinds, not_false_iff, if_true] at h
    split at h <;> cases h
  · intro h
    simp [check, h]

/-- Arguments of the kinds that `invert` takes are one matrix. -/
theorem exists_matrix_of_kinds {values : List Value} (h : values.map Value.kind = [.matrix]) :
    ∃ m, values = [.matrix m] := by
  obtain ⟨value, rfl, hkind⟩ := List.map_eq_singleton_iff.1 h
  obtain ⟨m, rfl⟩ := Value.kind_eq_matrix_iff.1 hkind
  exact ⟨m, rfl⟩

/-- Arguments of the kinds that `identity` takes are one scalar. -/
theorem exists_scalar_of_kinds {values : List Value} (h : values.map Value.kind = [.scalar]) :
    ∃ a, values = [.scalar a] := by
  obtain ⟨value, rfl, hkind⟩ := List.map_eq_singleton_iff.1 h
  obtain ⟨a, rfl⟩ := Value.kind_eq_scalar_iff.1 hkind
  exact ⟨a, rfl⟩

/-- Arguments of the kinds that `augment` takes are two matrices. -/
theorem exists_matrices_of_kinds {values : List Value}
    (h : values.map Value.kind = [.matrix, .matrix]) :
    ∃ m n, values = [.matrix m, .matrix n] := by
  obtain ⟨first, rest, rfl, hfirst, hrest⟩ := List.map_eq_cons_iff.1 h
  obtain ⟨m, rfl⟩ := Value.kind_eq_matrix_iff.1 hfirst
  obtain ⟨n, rfl⟩ := exists_matrix_of_kinds hrest
  exact ⟨m, n, rfl⟩

/-- A call with one matrix, and an equivalent call. -/
theorem exists_equiv_of_matrix {values values' : List Value}
    (hkinds : values.map Value.kind = [.matrix]) (h : List.Forall₂ Value.Equiv values values') :
    ∃ m n, values = [.matrix m] ∧ values' = [.matrix n] ∧ m.Equiv n := by
  obtain ⟨m, rfl⟩ := exists_matrix_of_kinds hkinds
  obtain _ | ⟨hvalue, ⟨⟩⟩ := h
  obtain ⟨n, rfl, hmatrices⟩ := hvalue.exists_of_matrix
  exact ⟨m, n, rfl, rfl, hmatrices⟩

/-- Equal sizes give the same identity matrix, or are refused for the same reason. -/
theorem identityOf_agree {size size' : Fraction} (h : size.Equiv size') :
    Agree RatMatrix.Equiv (identityOf size) (identityOf size') := by
  unfold identityOf
  simp only [h.isWhole_eq, h.ediv_eq]
  split
  · exact .error _
  · split
    · exact .error _
    · exact .ok (.refl _)

/-- A function gives equivalent matrices for equivalent arguments of its kinds, or fails for the
same reason. -/
theorem apply_agree {builtin : Builtin} {values values' : List Value}
    (hkinds : values.map Value.kind = builtin.signature)
    (h : List.Forall₂ Value.Equiv values values') :
    Agree RatMatrix.Equiv (builtin.apply values) (builtin.apply values') := by
  cases builtin with
  | augment =>
    obtain ⟨m, n, rfl⟩ := exists_matrices_of_kinds hkinds
    obtain _ | ⟨hleft, hrest⟩ := h
    obtain ⟨m', rfl, hleft'⟩ := hleft.exists_of_matrix
    obtain ⟨_, n', hsame, rfl, hright⟩ := exists_equiv_of_matrix rfl hrest
    cases hsame
    exact hleft'.augment hright
  | identity =>
    obtain ⟨size, rfl⟩ := exists_scalar_of_kinds hkinds
    obtain _ | ⟨hvalue, ⟨⟩⟩ := h
    obtain ⟨size', rfl, hsize⟩ := hvalue.exists_of_scalar
    exact identityOf_agree hsize
  | invert =>
    obtain ⟨m, n, rfl, rfl, hmatrices⟩ := exists_equiv_of_matrix hkinds h
    exact hmatrices.inverse
  | ref =>
    obtain ⟨m, n, rfl, rfl, hmatrices⟩ := exists_equiv_of_matrix hkinds h
    exact .ok hmatrices.ref
  | rref =>
    obtain ⟨m, n, rfl, rfl, hmatrices⟩ := exists_equiv_of_matrix hkinds h
    exact .ok hmatrices.rref
  | transpose =>
    obtain ⟨m, n, rfl, rfl, hmatrices⟩ := exists_equiv_of_matrix hkinds h
    exact .ok hmatrices.transpose

/-- A call depends on the values of its arguments only, also in the check of their kinds. -/
theorem call_agree (builtin : Builtin) {values values' : List Value}
    (h : List.Forall₂ Value.Equiv values values') :
    Agree Value.Equiv (builtin.call values) (builtin.call values') := by
  have hkinds := Value.Equiv.map_kind_eq h
  have hcheck : builtin.check values' = builtin.check values := by
    unfold check
    rw [hkinds]
  unfold call
  rw [hcheck]
  cases hpassed : builtin.check values with
  | error failure => exact .error failure
  | ok passed =>
    exact (apply_agree (check_eq_ok_iff.1 hpassed) h).bind
      fun _ _ hresults => .ok (.of_matrices hresults)

end Builtin

/-! ## Printing -/

/-- Equivalent values are shown in the same way. -/
theorem Value.Equiv.render_eq {a b : Value} (h : a.Equiv b) : a.render = b.render := by
  cases h with
  | scalar hscalars =>
    show Fraction.write _ = Fraction.write _
    rw [Fraction.reduce_eq_reduce_iff.2 (Fraction.equiv_iff.1 hscalars)]
  | matrix hmatrices => exact (RatMatrix.same_iff.1 hmatrices).render_eq

end MatrixCalc
