import MatrixCalc.Proofs.Evaluation.Failures
import MatrixCalc.Proofs.Evaluation.StoreEffect

/-!
# Evaluating variables

A well-formed variable that is only read has the value in its slot (`Slot.eval_ref`). One
that is to be defined is asked for once, and fails only if that request is cancelled
(`VarRef.WellFormed.eval_asks`). A target refuses values only for their kind
(`Expr.checkTarget_fails`).
-/

namespace MatrixCalc

variable {σ α : Type}

namespace Exchange

/-- The word by which a value was asked for. -/
def word : Exchange → Word
  | matrix name _ => ⟨.defineMatrix, "$" ++ name⟩
  | scalar name _ => ⟨.defineScalar, "$" ++ name⟩
  | anonymous _ => ⟨.defineAnonymous, "$$"⟩

/-- Whether a value was given. -/
def answered : Exchange → Bool
  | matrix _ answer | anonymous answer => answer.isSome
  | scalar _ answer => answer.isSome

end Exchange

namespace Evaluation

/-- An evaluation that makes one request, and ends with it if it is cancelled. -/
inductive Asks (word : Word) (before : Progress σ) :
    EStateM.Result Failure (Progress σ) α → Prop
  | answered {exchange : Exchange} {value : α} {after : Progress σ} (hword : exchange.word = word)
      (hanswered : exchange.answered = true) (hexchanged : Exchanged before after [exchange]) :
      Asks word before (.ok value after)
  | cancelled {exchange : Exchange} {after : Progress σ} (hword : exchange.word = word)
      (hanswered : exchange.answered = false) (hexchanged : Exchanged before after [exchange]) :
      Asks word before (.error (Failure.because .cancelled) after)

/-- Asking for a value and going on without a failure or a request. -/
theorem asks_bind {β : Type} {answer : σ → Option α × σ} (exchange : Option α → Exchange)
    {word : Word} {next : α → Evaluation σ β} (hword : ∀ given, (exchange given).word = word)
    (hanswered : ∀ given, (exchange given).answered = given.isSome)
    (hnext : ∀ given middle, ∃ value after, next given middle = .ok value after ∧
      after.exchanges = middle.exchanges) (before : Progress σ) :
    Asks word before ((ask answer exchange >>= next) before) := by
  have hexchanged : Exchanged before (asked before answer exchange)
      [exchange (answer before.user).1] := rfl
  rw [bind_apply, ask_apply]
  cases hgiven : (answer before.user).1 with
  | none => exact .cancelled (hword _) (by simp [hanswered, hgiven]) hexchanged
  | some given =>
    obtain ⟨value, after, hvalue, hexchanges⟩ := hnext given (asked before answer exchange)
    dsimp only
    rw [hvalue]
    exact .answered (hword _) (by simp [hanswered, hgiven]) (hexchanges.trans hexchanged)

end Evaluation

open Evaluation (Asks asks_bind bind_apply read_eq_ok write_eq_ok)

/-- A variable that is read has the value in its slot. -/
theorem Slot.eval_ref (slot : Slot) (definer : Definer σ) (before : Progress σ) :
    slot.ref.eval definer before = .ok (before.slots.get slot) before := by
  cases slot with
  | matrix letter =>
    have heval : ∀ name, (VarRef.mk .matrix (some name)).eval definer = (do
        let value ← Evaluation.read fun slots => slots.getMatrixNamed name
        pure (.matrix value)) := fun _ => rfl
    have hlook : before.slots.getMatrixNamed (Slot.matrix letter).name =
        .ok before.slots.matrices[letter] := by
      rw [Slots.getMatrixNamed, Slot.findMatrix_name]
      rfl
    rw [ref, heval, bind_apply, read_eq_ok hlook]
    rfl
  | scalar letter =>
    have heval : ∀ name, (VarRef.mk .scalar (some name)).eval definer = (do
        let value ← Evaluation.read fun slots => slots.getScalarNamed name
        pure (.scalar value)) := fun _ => rfl
    have hlook : before.slots.getScalarNamed (Slot.scalar letter).name =
        .ok before.slots.scalars[letter] := by
      rw [Slots.getScalarNamed, Slot.findScalar_name]
      rfl
    rw [ref, heval, bind_apply, read_eq_ok hlook]
    rfl

/-- A value of its kind is stored under the name of a well-formed reference. -/
theorem VarRef.WellFormed.write_ok {ref : VarRef} (hwf : ref.WellFormed)
    (hnamed : ref.kind ≠ .defineAnonymous) {value : Value} (hkind : value.kind = ref.kind.valueKind)
    (before : Progress σ) :
    ∃ slots, Evaluation.write (fun slots => ref.requireName >>= fun name =>
      slots.setNamed name value) before = .ok () { before with slots } := by
  obtain ⟨slot, hname, hslot⟩ := hwf.exists_slot hnamed
  obtain ⟨slots, hset, -⟩ := before.slots.setNamed_name (hkind.trans hslot.symm)
  refine ⟨slots, write_eq_ok ?_⟩
  rw [requireName, hname]
  exact hset

/-- A well-formed definition makes one request, and fails only if it is cancelled. -/
theorem VarRef.WellFormed.eval_asks {ref : VarRef} (hwf : ref.WellFormed)
    (hdefines : ref.defines = true) (definer : Definer σ) (before : Progress σ) :
    Asks ref.word before (ref.eval definer before) := by
  obtain ⟨kind, name⟩ := ref
  unfold VarRef.eval
  cases kind with
  | matrix | scalar => cases hdefines
  | defineMatrix =>
    refine asks_bind (.matrix _) (fun _ => rfl) (fun _ => rfl) (fun given middle => ?_) before
    have hkind : (Value.matrix given).kind = .matrix := rfl
    obtain ⟨slots, hwrite⟩ := hwf.write_ok nofun hkind middle
    exact ⟨.matrix given, { middle with slots }, by rw [bind_apply, hwrite]; rfl, rfl⟩
  | defineScalar =>
    refine asks_bind (.scalar _) (fun _ => rfl) (fun _ => rfl) (fun given middle => ?_) before
    have hkind : (Value.scalar given).kind = .scalar := rfl
    obtain ⟨slots, hwrite⟩ := hwf.write_ok nofun hkind middle
    exact ⟨.scalar given.reduce, { middle with slots }, by rw [bind_apply, hwrite]; rfl, rfl⟩
  | defineAnonymous =>
    exact asks_bind .anonymous (fun _ => rfl) (fun _ => rfl)
      (fun given middle => ⟨_, middle, rfl, rfl⟩) before

/-! ## Targets -/

namespace Expr

/-- A target does not take values of the other kind. -/
theorem checkTarget_fails (target : VarRef) (value : Value) :
    Meets (fun _ => True) (Failure.ReportOf [.mismatch]) (checkTarget target value) := by
  unfold checkTarget
  split
  · exact Failure.reportOf_because .matrixIntoScalar rfl (by decide)
  · exact Failure.reportOf_because .scalarIntoMatrix rfl (by decide)
  · trivial

end Expr

end MatrixCalc
