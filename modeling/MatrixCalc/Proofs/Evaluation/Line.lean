import MatrixCalc.Proofs.Evaluation.Basic
import MatrixCalc.Proofs.Syntax.References

/-!
# Evaluating a line

How a line is evaluated, in terms of the value of its sum: its target is looked at first, checked
against the value next, and written before the last result.
-/

namespace MatrixCalc.Expr

open Evaluation (bind_apply ofExcept_apply write_apply)

variable {σ : Type}

/-! ## Targets -/

/-- A target takes the values of its kind. -/
theorem checkTarget_eq_ok_iff {target : VarRef} (hdefines : target.defines = false)
    {value : Value} : checkTarget target value = .ok () ↔ value.kind = target.kind.valueKind := by
  obtain ⟨kind, name⟩ := target
  cases kind with
  | matrix | scalar => cases value <;> simp [checkTarget, Value.kind, RefKind.valueKind]
  | defineMatrix | defineScalar | defineAnonymous => cases hdefines

/-- The name of a target that is a well-formed variable. -/
theorem targetName_eq {target : VarRef} {slot : Slot} (hdefines : target.defines = false)
    (hname : target.name = some slot.name) : targetName target = .ok slot.name := by
  rw [targetName, hname, hdefines]

/-! ## Lines -/

/-- A line without a target is evaluated, and its value is stored as the last result. -/
theorem evaluate_none (definer : Definer σ) (sum : Sum) (before : Progress σ) :
    (mk sum none).evaluate definer before =
      match sum.eval definer before with
      | .ok value middle =>
          .ok ⟨value, none⟩ { middle with slots := middle.slots.setLast value }
      | .error failure middle => .error failure middle := by
  show (sum.eval definer >>= _ : Evaluation σ Outcome) before = _
  rw [bind_apply]
  cases sum.eval definer before <;> rfl

/-- A line with a target is evaluated, and its value is stored in the target and then as the last
result, if the target takes values of its kind. -/
theorem evaluate_some {target : VarRef} {name : String} (htarget : targetName target = .ok name)
    (definer : Definer σ) (sum : Sum) (before : Progress σ) :
    (mk sum (some target)).evaluate definer before =
      match sum.eval definer before with
      | .ok value middle =>
          match checkTarget target value >>= fun _ => middle.slots.setNamed name value with
          | .ok slots => .ok ⟨value, some name⟩ { middle with slots := slots.setLast value }
          | .error failure => .error failure middle
      | .error failure middle => .error failure middle := by
  show (Evaluation.ofExcept (targetName target) >>= _ : Evaluation σ Outcome) before = _
  rw [htarget]
  show (sum.eval definer >>= _ : Evaluation σ Outcome) before = _
  rw [bind_apply]
  cases sum.eval definer before with
  | error failure middle => rfl
  | ok value middle =>
    dsimp only
    rw [bind_apply, ofExcept_apply]
    cases checkTarget target value with
    | error failure => rfl
    | ok checked =>
      show (Evaluation.write _ >>= _ : Evaluation σ Outcome) middle = _
      rw [bind_apply, write_apply]
      show _ = match middle.slots.setNamed name value with
        | .ok slots => _
        | .error failure => _
      cases middle.slots.setNamed name value <;> rfl

/-- A source line is evaluated if it is parsed. -/
theorem evaluateLine_eq (definer : Definer σ) (source : String) (before : Progress σ) :
    evaluateLine definer source before =
      match parse source with
      | .ok expr => expr.evaluate definer before
      | .error failure => .error failure before := by
  show (Evaluation.ofExcept (parse source) >>= _ : Evaluation σ Outcome) before = _
  rw [bind_apply, ofExcept_apply]
  cases parse source <;> rfl

end MatrixCalc.Expr
