import MatrixCalc.Proofs.Evaluation.Congruence
import MatrixCalc.Proofs.Slots

/-!
# Evaluation does not depend on how fractions are stored

`Expr.evaluate_equiv`: from equivalent slots, with definers that give equivalent answers, a line
evaluates to equivalent values, or fails in the same way; the slots are equivalent again and the
same was asked for.
-/

namespace MatrixCalc

variable {σ τ : Type}

/-! ## Requests and states -/

/-- The same request with equivalent answers. -/
inductive Exchange.Equiv : Exchange → Exchange → Prop
  | matrix (name : String) {answer answer' : Option RatMatrix}
      (h : Option.Rel RatMatrix.Equiv answer answer') :
      Equiv (.matrix name answer) (.matrix name answer')
  | scalar (name : String) {answer answer' : Option Fraction}
      (h : Option.Rel Fraction.Equiv answer answer') :
      Equiv (.scalar name answer) (.scalar name answer')
  | anonymous {answer answer' : Option RatMatrix} (h : Option.Rel RatMatrix.Equiv answer answer') :
      Equiv (.anonymous answer) (.anonymous answer')

/-- Equivalent exchanges asked for the same. -/
theorem Exchange.Equiv.request_eq {exchange exchange' : Exchange} (h : exchange.Equiv exchange') :
    exchange.request = exchange'.request := by
  cases h <;> rfl

/-- An exchange is equivalent to itself. -/
theorem Exchange.Equiv.refl (exchange : Exchange) : exchange.Equiv exchange := by
  cases exchange with
  | matrix name answer => exact .matrix name (optionRel_refl .refl answer)
  | scalar name answer =>
    exact .scalar name (optionRel_refl .refl answer)
  | anonymous answer => exact .anonymous (optionRel_refl .refl answer)

/-- Two definers whose states are related give equivalent answers, or both cancel. -/
abbrev Definer.Equiv (definer : Definer σ) (definer' : Definer τ) (U : σ → τ → Prop) : Prop :=
  Related RatMatrix.Equiv Fraction.Equiv U definer definer'

/-- States with equivalent slots and exchanges, and related states of the definers. -/
structure Progress.Equiv (U : σ → τ → Prop) (progress : Progress σ) (progress' : Progress τ) :
    Prop where
  slots : progress.slots.Equiv progress'.slots
  user : U progress.user progress'.user
  exchanges : List.Forall₂ Exchange.Equiv progress.exchanges progress'.exchanges

/-- A state is equivalent to itself, with the same definer. -/
theorem Progress.Equiv.refl (progress : Progress σ) :
    Progress.Equiv (· = ·) progress progress :=
  ⟨.refl progress.slots, rfl, List.forall₂_same.2 fun exchange _ => .refl exchange⟩

variable {U : σ → τ → Prop}

/-- Asking two definers that answer alike gives equivalent values and exchanges. -/
theorem Evaluation.ask_simulates {α β : Type} {R : α → β → Prop} {answer : σ → Option α × σ}
    {answer' : τ → Option β × τ} (exchange : Option α → Exchange) (exchange' : Option β → Exchange)
    (hanswer : RelatedAnswers U R answer answer')
    (hexchange : ∀ value value', Option.Rel R value value' →
      (exchange value).Equiv (exchange' value')) :
    Simulates (Progress.Equiv U) R (ask answer exchange) (ask answer' exchange') := by
  refine Simulates.ask fun before before' hstates => ?_
  obtain ⟨hvalues, husers⟩ := hanswer _ _ hstates.user
  exact ⟨hvalues, hstates.slots, husers,
    List.rel_append hstates.exchanges (.cons (hexchange _ _ hvalues) .nil)⟩

/-- Writes that keep slots equivalent keep states equivalent. -/
theorem Evaluation.write_simulates {change change' : Slots → Except Failure Slots}
    (h : ∀ slots slots', slots.Equiv slots' → Agree Slots.Equiv (change slots) (change' slots')) :
    Simulates (Progress.Equiv U) (fun _ _ => True) (write change) (write change') := by
  refine Simulates.write fun before before' hstates => ?_
  exact (h _ _ hstates.slots).mono fun _ _ hslots => ⟨hslots, hstates.user, hstates.exchanges⟩

/-! ## Variables -/

variable {definer : Definer σ} {definer' : Definer τ}

open Evaluation (Simulates)

/-- A named slot is written with equivalent values. -/
theorem VarRef.write_simulates (ref : VarRef) {value value' : Value} (h : value.Equiv value') :
    Simulates (Progress.Equiv U) (fun _ _ => True)
      (Evaluation.write fun slots => ref.requireName >>= fun name => slots.setNamed name value)
      (Evaluation.write fun slots => ref.requireName >>= fun name => slots.setNamed name value') :=
  Evaluation.write_simulates fun _ _ hslots => .bind_same ref.requireName fun name =>
    hslots.setNamed name h

/-- A reference evaluates to equivalent values in equivalent states. -/
theorem VarRef.eval_simulates (hdefiners : definer.Equiv definer' U) (ref : VarRef) :
    Simulates (Progress.Equiv U) Value.Equiv (ref.eval definer) (ref.eval definer') := by
  unfold VarRef.eval
  cases ref.kind with
  | matrix =>
    refine Simulates.bind (R := RatMatrix.Equiv) (.read fun before before' hstates => ?_)
      fun m n hm => .pure (.of_matrices hm)
    exact .bind_same ref.requireName fun name => hstates.slots.getMatrixNamed name
  | scalar =>
    refine Simulates.bind (R := Fraction.Equiv) (.read fun before before' hstates => ?_)
      fun a b ha => .pure (.scalar ha)
    exact .bind_same ref.requireName fun name => hstates.slots.getScalarNamed name
  | defineMatrix =>
    have hask := Evaluation.ask_simulates (.matrix ref.shownName) (.matrix ref.shownName)
      (hdefiners.matrix ref.shownName) fun _ _ h => .matrix _ h
    exact hask.bind fun m n hm => (ref.write_simulates (.of_matrices hm)).bind
      fun _ _ _ => .pure (.of_matrices hm)
  | defineScalar =>
    have hask := Evaluation.ask_simulates (.scalar ref.shownName) (.scalar ref.shownName)
      (hdefiners.scalar ref.shownName) fun _ _ h => .scalar _ h
    exact hask.bind fun a b ha => (ref.write_simulates (.scalar ha)).bind
      fun _ _ _ => .pure (.scalar ha.reduce)
  | defineAnonymous =>
    have hask := Evaluation.ask_simulates .anonymous .anonymous hdefiners.anonymous
      fun _ _ h => .anonymous h
    exact hask.bind fun m n hm => .pure (.of_matrices hm)

/-! ## Lines -/

/-- A tree evaluates to equivalent values in equivalent states, or fails for the same reason. -/
theorem Expr.eval_simulates (hdefiners : definer.Equiv definer' U) (expr : Expr) :
    Simulates (Progress.Equiv U) Value.Equiv (expr.eval definer) (expr.eval definer') := by
  have hsame : Simulates (Progress.Equiv U) Value.Equiv (expr.eval definer)
      ((expr.substitute .variable).eval definer') :=
    expr.substitute_simulates Value.isRespected_equiv fun ref _ => ref.eval_simulates hdefiners
  rwa [expr.substitute_variable] at hsame

/-- The same variable is assigned to, with equivalent values. -/
structure Outcome.Equiv (outcome outcome' : Outcome) : Prop where
  value : outcome.value.Equiv outcome'.value
  target : outcome.target = outcome'.target

/-- Whether a target takes a value depends on its kind only. -/
theorem Expr.checkTarget_eq (target : VarRef) {value value' : Value} (h : value.Equiv value') :
    checkTarget target value = checkTarget target value' := by
  unfold checkTarget
  rw [h.kind_eq]

/-- Lines with one target that evaluate to equivalent values have equivalent outcomes. -/
theorem Expr.evaluate_simulates_of_eval {expr expr' : Expr} (htarget : expr'.target = expr.target)
    (heval : Simulates (Progress.Equiv U) Value.Equiv (expr.eval definer) (expr'.eval definer')) :
    Simulates (Progress.Equiv U) Outcome.Equiv (expr.evaluate definer)
      (expr'.evaluate definer') := by
  have hlast : ∀ {value value' : Value} (target : Option String), value.Equiv value' →
      Simulates (Progress.Equiv U) Outcome.Equiv
        (do Evaluation.write (fun slots => .ok (slots.setLast value)); pure ⟨value, target⟩)
        (do Evaluation.write (fun slots => .ok (slots.setLast value')); pure ⟨value', target⟩) :=
    fun target hvalue =>
      (Evaluation.write_simulates fun _ _ hslots => .ok (hslots.setLast hvalue)).bind
        fun _ _ _ => .pure ⟨hvalue, rfl⟩
  unfold Expr.evaluate
  rw [htarget]
  cases expr.target with
  | none => exact heval.bind fun value value' hvalue => hlast none hvalue
  | some target =>
    refine Simulates.bind_same (targetName target) fun name => ?_
    refine heval.bind fun value value' hvalue => ?_
    rw [checkTarget_eq target hvalue]
    refine Simulates.bind_same (checkTarget target value') fun _ => ?_
    refine (Evaluation.write_simulates fun _ _ hslots => hslots.setNamed name hvalue).bind
      fun _ _ _ => ?_
    exact hlast (some name) hvalue

/-- A line comes to equivalent outcomes in equivalent states, or fails for the same reason. -/
theorem Expr.evaluate_simulates (hdefiners : definer.Equiv definer' U) (expr : Expr) :
    Simulates (Progress.Equiv U) Outcome.Equiv (expr.evaluate definer)
      (expr.evaluate definer') :=
  evaluate_simulates_of_eval rfl (expr.eval_simulates hdefiners)

/-- Pairwise equivalent exchanges are the same requests in the same order. -/
theorem Exchange.Equiv.map_request_eq {exchanges exchanges' : List Exchange}
    (h : List.Forall₂ Exchange.Equiv exchanges exchanges') :
    exchanges.map Exchange.request = exchanges'.map Exchange.request := by
  induction h with
  | nil => rfl
  | cons hfirst _ ih => rw [List.map_cons, List.map_cons, hfirst.request_eq, ih]

/-- From equivalent slots, with definers that give equivalent answers, a line evaluates to
equivalent values that are shown alike, or fails in the same way. The slots are equivalent again,
the same slots are listed as changed, and the same was asked for. -/
theorem Expr.evaluate_equiv (hdefiners : definer.Equiv definer' U) (expr : Expr)
    {before : Progress σ} {before' : Progress τ} (hbefore : Progress.Equiv U before before') :
    match expr.evaluate definer before, expr.evaluate definer' before' with
    | .ok outcome after, .ok outcome' after' =>
        outcome.value.Equiv outcome'.value ∧ outcome.target = outcome'.target ∧
          outcome.value.render = outcome'.value.render ∧ Progress.Equiv U after after' ∧
          after.slots.modified = after'.slots.modified ∧
          after.exchanges.map Exchange.request = after'.exchanges.map Exchange.request
    | .error failure after, .error failure' after' =>
        failure = failure' ∧ Progress.Equiv U after after' ∧
          after.slots.modified = after'.slots.modified ∧
          after.exchanges.map Exchange.request = after'.exchanges.map Exchange.request
    | _, _ => False := by
  have hends := expr.evaluate_simulates hdefiners before before' hbefore
  generalize expr.evaluate definer before = result at hends ⊢
  generalize expr.evaluate definer' before' = result' at hends ⊢
  cases hends with
  | ok houtcomes hafter =>
    exact ⟨houtcomes.value, houtcomes.target, houtcomes.value.render_eq, hafter,
      hafter.slots.modified_eq, Exchange.Equiv.map_request_eq hafter.exchanges⟩
  | error failure hafter =>
    exact ⟨rfl, hafter, hafter.slots.modified_eq,
      Exchange.Equiv.map_request_eq hafter.exchanges⟩

/-- `x / $a -> y`, where all scalars are a half, stored as `1/2` or as `2/4`. -/
theorem Expr.evaluate_equiv_halves :
    let half : Fraction := ⟨1, 2, by decide⟩
    let quarters : Fraction := ⟨2, 4, by decide⟩
    let definer := fun value : Fraction => (⟨fun _ user => (none, user),
      fun _ user => (some value, user), fun user => (none, user)⟩ : Definer Unit)
    let before := fun value : Fraction => (⟨{ Slots.fresh 2 2 with
      scalars := Vector.replicate 26 value }, (), []⟩ : Progress Unit)
    let expr := Expr.mk (.term (.join (.factor (.mk false (.variable ⟨.scalar, some "x"⟩))) .div
      (.mk false (.variable ⟨.defineScalar, some "a"⟩)))) (some ⟨.scalar, some "y"⟩)
    ∃ outcome after outcome' after',
      expr.evaluate (definer half) (before half) = .ok outcome after ∧
        expr.evaluate (definer quarters) (before quarters) = .ok outcome' after' ∧
        outcome.value.Equiv outcome'.value ∧ outcome.value.render = outcome'.value.render := by
  intro half quarters definer before expr
  have hvalues : half.Equiv quarters := by decide
  have hdefiners : (definer half).Equiv (definer quarters) (fun _ _ => True) :=
    ⟨fun _ _ _ _ => ⟨.none, trivial⟩, fun _ _ _ _ => ⟨.some hvalues, trivial⟩,
      fun _ _ _ => ⟨.none, trivial⟩⟩
  have hbefore : Progress.Equiv (fun _ _ => True) (before half) (before quarters) := by
    refine ⟨⟨rfl, rfl, fun slot => ?_⟩, trivial, .nil⟩
    cases slot with
    | matrix letter => exact .refl _
    | scalar letter => simpa [before, Slots.get] using Value.Equiv.scalar hvalues
  have hequiv := Expr.evaluate_equiv hdefiners expr hbefore
  have hsucceeds : Evaluation.succeeds (expr.evaluate (definer half) (before half)) = true := by
    decide +kernel
  have hsucceeds' : Evaluation.succeeds (expr.evaluate (definer quarters) (before quarters)) =
      true := by decide +kernel
  obtain ⟨outcome, after, hrun⟩ := Evaluation.exists_of_succeeds hsucceeds
  obtain ⟨outcome', after', hrun'⟩ := Evaluation.exists_of_succeeds hsucceeds'
  rw [hrun, hrun'] at hequiv
  exact ⟨outcome, after, outcome', after', hrun, hrun', hequiv.1, hequiv.2.2.1⟩

end MatrixCalc
