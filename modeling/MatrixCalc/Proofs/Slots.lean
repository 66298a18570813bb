import MatrixCalc.Proofs.Value

/-!
# Slots depend on values only

`Slots.Equiv` relates contents that are equivalent slot by slot. Reading, writing and listing the
slots respects it.
-/

namespace MatrixCalc.Slots

/-- Slots of one default size whose contents are pairwise equivalent. -/
structure Equiv (slots slots' : Slots) : Prop where
  rows : slots.defaultRows = slots'.defaultRows
  cols : slots.defaultCols = slots'.defaultCols
  contents : ∀ slot, (slots.get slot).Equiv (slots'.get slot)

namespace Equiv

variable {slots slots' : Slots}

/-- Slots are equivalent to themselves. -/
theorem refl (slots : Slots) : slots.Equiv slots :=
  ⟨rfl, rfl, fun slot => .refl (slots.get slot)⟩

/-- A matrix slot holds equivalent matrices in equivalent slots. -/
theorem matrices (h : slots.Equiv slots') {letter : Letter} {m n : RatMatrix}
    (hm : slots.get (.matrix letter) = .matrix m) (hn : slots'.get (.matrix letter) = .matrix n) :
    m.Equiv n := by
  have hcontents := h.contents (.matrix letter)
  rw [hm, hn] at hcontents
  obtain ⟨_, hsame, hequiv⟩ := hcontents.exists_of_matrix
  cases hsame
  exact hequiv

/-- A scalar slot holds equal numbers in equivalent slots. -/
theorem scalars (h : slots.Equiv slots') {letter : Letter} {a b : Fraction}
    (ha : slots.get (.scalar letter) = .scalar a) (hb : slots'.get (.scalar letter) = .scalar b) :
    a.Equiv b := by
  have hcontents := h.contents (.scalar letter)
  rw [ha, hb] at hcontents
  obtain ⟨_, hsame, hequiv⟩ := hcontents.exists_of_scalar
  cases hsame
  exact hequiv

/-! ## Writing -/

/-- Writing equivalent matrices to one slot keeps slots equivalent. -/
theorem setMatrix (h : slots.Equiv slots') (letter : Letter) {m n : RatMatrix} (hm : m.Equiv n) :
    (slots.setMatrix letter m).Equiv (slots'.setMatrix letter n) := by
  refine ⟨h.rows, h.cols, fun slot => ?_⟩
  rw [get_setMatrix, get_setMatrix]
  split
  · exact .of_matrices hm
  · exact h.contents slot

/-- Writing equal numbers to one slot keeps slots equivalent. -/
theorem setScalar (h : slots.Equiv slots') (letter : Letter) {a b : Fraction} (ha : a.Equiv b) :
    (slots.setScalar letter a).Equiv (slots'.setScalar letter b) := by
  refine ⟨h.rows, h.cols, fun slot => ?_⟩
  rw [get_setScalar, get_setScalar]
  split
  · exact .scalar ha.reduce
  · exact h.contents slot

/-- Writing equivalent values under one name keeps slots equivalent, or is refused for the same
reason. -/
theorem setNamed (h : slots.Equiv slots') (name : String) {value value' : Value}
    (hvalue : value.Equiv value') :
    Agree Slots.Equiv (slots.setNamed name value) (slots'.setNamed name value') := by
  cases hvalue with
  | scalar hscalars =>
    exact .map_same (Slot.findScalar name) fun letter => h.setScalar letter hscalars
  | matrix hmatrices =>
    exact .map_same (Slot.findMatrix name) fun letter =>
      h.setMatrix letter (RatMatrix.same_iff.1 hmatrices)

/-- Equivalent last results go to the same slot and keep slots equivalent. -/
theorem setLast (h : slots.Equiv slots') {value value' : Value} (hvalue : value.Equiv value') :
    (slots.setLast value).Equiv (slots'.setLast value') := by
  cases hvalue with
  | scalar hscalars => exact h.setScalar 25 hscalars
  | matrix hmatrices => exact h.setMatrix 25 (RatMatrix.same_iff.1 hmatrices)

/-! ## Reading -/

/-- Looking up a matrix by its name gives equivalent matrices, or fails in the same way. -/
theorem getMatrixNamed (h : slots.Equiv slots') (name : String) :
    Agree RatMatrix.Equiv (slots.getMatrixNamed name) (slots'.getMatrixNamed name) :=
  .bind_same (Slot.findMatrix name) fun _ => .ok (h.matrices rfl rfl)

/-- Looking up a scalar by its name gives equal numbers, or fails in the same way. -/
theorem getScalarNamed (h : slots.Equiv slots') (name : String) :
    Agree Fraction.Equiv (slots.getScalarNamed name) (slots'.getScalarNamed name) :=
  .bind_same (Slot.findScalar name) fun _ => .ok (h.scalars rfl rfl)

/-- The same slots are listed as changed. -/
theorem modified_eq (h : slots.Equiv slots') : slots.modified = slots'.modified := by
  have hslot : slots.isModified = slots'.isModified := by
    funext slot
    cases slot with
    | matrix letter => rw [isModified, isModified, (h.matrices rfl rfl).same_eq, h.rows, h.cols]
    | scalar letter => rw [isModified, isModified, (h.scalars rfl rfl).isZero_eq]
  rw [modified, modified, hslot]

end Equiv

end MatrixCalc.Slots
