import MatrixCalc.Proofs.Echelon.Unique
import MatrixCalc.Proofs.Grid.EchelonForm
import MatrixCalc.Proofs.RatMatrix.Congruence

/-!
# Reduced echelon form decides row equivalence

Matrices have the same reduced row echelon form exactly if they are row equivalent
(`same_rref_iff`), whichever rows the elimination picked on its way. In particular the form of the
form, and the form of the row echelon form, is the form of the matrix (`rref_canonical`).
-/

namespace MatrixCalc

variable {rows cols : Nat}

/-- Grids have the same reduced row echelon form exactly if they are row equivalent. -/
theorem Grid.values_rref_eq_iff {left right : Grid rows cols} :
    left.rref.values = right.rref.values ↔ RowEquiv left.values right.values := by
  constructor
  · intro h
    have hright : RowEquiv left.rref.values right.values := h ▸ right.rowEquiv_rref
    exact left.rowEquiv_rref.symm.trans hright
  · intro h
    have hforms : RowEquiv left.rref.values right.rref.values :=
      left.rowEquiv_rref.trans (h.trans right.rowEquiv_rref.symm)
    exact left.isReducedEchelon_rref.eq_of_rowEquiv right.isReducedEchelon_rref hforms

namespace RatMatrix

/-- Two matrices have the same reduced row echelon form exactly if they are row equivalent. -/
theorem same_rref_iff {left right : Grid rows cols} :
    (mk rows cols left).rref.same (mk rows cols right).rref = true ↔
      RowEquiv left.values right.values := by
  rw [← Grid.values_rref_eq_iff, same_iff]
  exact ⟨fun ⟨h⟩ => h, .mk⟩

/-- Reduced row echelon form is a canonical form of row equivalence. -/
theorem rref_canonical :
    (∀ (rows cols : Nat) (left right : Grid rows cols),
      (mk rows cols left).rref.same (mk rows cols right).rref = true ↔
        ∃ factor : Matrix (Fin rows) (Fin rows) ℚ,
          IsUnit factor ∧ left.values = factor * right.values) ∧
    ∀ m : RatMatrix, m.rref.rref.same m.rref = true ∧ m.ref.rref.same m.rref = true := by
  refine ⟨fun rows cols left right => same_rref_iff, fun m => ⟨?_, ?_⟩⟩
  · exact same_rref_iff.2 m.grid.rowEquiv_rref
  · exact same_rref_iff.2 m.grid.rowEquiv_ref

end RatMatrix

end MatrixCalc
