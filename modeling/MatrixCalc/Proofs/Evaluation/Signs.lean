import MatrixCalc.Proofs.Evaluation.Representation
import MatrixCalc.Proofs.Opposed

/-!
# The sign of a factor

A factor of a term changes its sign: then the term evaluates to the opposite value, or it fails in
the same way, and the slots, the definer and the requests are not touched by the change. So a term
is taken away from a sum by adding the term with the sign of its first factor changed
(`Term.sign_law`).
-/

namespace MatrixCalc

open Evaluation (Parallel Simulates)

variable {σ : Type} {definer : Definer σ}

/-! ## Changes of one sign -/

/-- The factor with a minus sign if it had none, and without if it had one. -/
def Factor.flip : Factor → Factor
  | .mk negated operand => .mk (!negated) operand

/-- The term with the sign of its first factor changed. -/
def Term.flipFirst : Term → Term
  | .factor last => .factor last.flip
  | .join before op last => .join before.flipFirst op last

/-- The second term is the first one with the sign of one factor changed. -/
inductive Term.FlipsOne : Term → Term → Prop
  | factor (last : Factor) : FlipsOne (.factor last) (.factor last.flip)
  | last (before : Term) (op : MulOp) (last : Factor) :
      FlipsOne (.join before op last) (.join before op last.flip)
  | before {before before' : Term} (h : FlipsOne before before') (op : MulOp) (last : Factor) :
      FlipsOne (.join before op last) (.join before' op last)

/-- Flipping the first factor flips one factor. -/
theorem Term.flipsOne_flipFirst : ∀ term : Term, term.FlipsOne term.flipFirst
  | .factor last => .factor last
  | .join before op last => .before before.flipsOne_flipFirst op last

/-! ## Runs -/

/-- Runs of which one is the opposite of the other, and the others are the same. -/
inductive Runs.OneOpposed : Runs → Runs → Prop
  | current (closed : List Value) {current current' : Value} (h : current.Opposed current') :
      OneOpposed ⟨closed, current⟩ ⟨closed, current'⟩
  | closed {runs runs' : Runs} (h : OneOpposed runs runs') (current : Value) :
      OneOpposed ⟨runs.current :: runs.closed, current⟩ ⟨runs'.current :: runs'.closed, current⟩

namespace Runs

/-- An opposite factor makes the run that it belongs to the opposite. -/
theorem extend_opposed (runs : Runs) (op : MulOp) {value value' : Value}
    (h : value.Opposed value') :
    Agree OneOpposed (runs.extend op value) (runs.extend op value') := by
  cases op with
  | mul => exact (h.multiply_right runs.current).map fun _ _ => .current runs.closed
  | div => exact .ok (.current _ h)

namespace OneOpposed

variable {runs runs' : Runs}

/-- One more factor of the same value leaves one run the opposite. -/
theorem extend (h : OneOpposed runs runs') (op : MulOp) (value : Value) :
    Agree OneOpposed (runs.extend op value) (runs'.extend op value) := by
  cases op with
  | mul =>
    cases h with
    | current closed hcurrent =>
      exact (hcurrent.multiply_left value).map fun _ _ => .current closed
    | closed hruns current =>
      exact .map_same (current.multiply value) fun product => .closed hruns product
  | div => exact .ok (.closed h value)

/-- The quotient of runs is the opposite if one of them is. -/
theorem divideAll (h : OneOpposed runs runs') :
    Agree Value.Opposed runs.divideAll runs'.divideAll := by
  induction h with
  | current closed hcurrent =>
    -- the open run is the last divisor, unless it is the only run
    cases closed with
    | nil => exact .ok hcurrent
    | cons previous earlier =>
      rw [divideAll_cons, divideAll_cons]
      exact .bind_same _ fun quotient => hcurrent.divide_right quotient
  | closed hruns current ih =>
    rw [divideAll_cons, divideAll_cons]
    exact ih.bind fun _ _ hquotients => hquotients.divide_left current

end OneOpposed

end Runs

/-! ## Terms -/

/-- A factor with the other sign evaluates to the opposite value. -/
theorem Factor.flip_simulates (factor : Factor) :
    Simulates (· = ·) Value.Opposed (factor.eval definer) (factor.flip.eval definer) := by
  obtain ⟨negated, operand⟩ := factor
  refine (Simulates.refl (operand.eval definer)).bind fun value value' hvalue => .pure ?_
  subst hvalue
  cases negated with
  | true => exact .negate_left value
  | false => exact .negate_right value

/-- A term with one factor flipped evaluates to runs of which one is opposed. -/
theorem Term.FlipsOne.evalRuns_simulates {term term' : Term} (h : term.FlipsOne term') :
    Simulates (· = ·) Runs.OneOpposed (term.evalRuns definer) (term'.evalRuns definer) := by
  induction h with
  | factor last => exact last.flip_simulates.bind fun _ _ hvalue => .pure (.current [] hvalue)
  | last before op last =>
    refine (Simulates.refl (before.evalRuns definer)).bind fun runs runs' hruns => ?_
    subst hruns
    exact last.flip_simulates.bind fun value value' hvalue =>
      .ofExcept (runs.extend_opposed op hvalue)
  | before _ op last ih =>
    refine ih.bind fun runs runs' hruns => ?_
    refine (Simulates.refl (last.eval definer)).bind fun value value' hvalue => ?_
    subst hvalue
    exact .ofExcept (hruns.extend op value)

/-- A term with one factor flipped evaluates to the opposite value, or fails for the same reason. -/
theorem Term.FlipsOne.eval_simulates {term term' : Term} (h : term.FlipsOne term')
    (definer : Definer σ) :
    Simulates (· = ·) Value.Opposed (term.eval definer) (term'.eval definer) :=
  h.evalRuns_simulates.bind fun _ _ hruns => .ofExcept hruns.divideAll

/-! ## Sums -/

/-- Taking a term away is adding it with its first factor flipped. -/
theorem Sum.flipFirst_simulates (left : Sum) (last : Term) :
    Simulates (· = ·) Value.Equiv ((Sum.join left .sub last).eval definer)
      ((Sum.join left .add last.flipFirst).eval definer) := by
  refine (Simulates.refl (left.eval definer)).bind fun value value' hvalue => ?_
  subst hvalue
  exact (last.flipsOne_flipFirst.eval_simulates definer).bind fun _ _ hterms =>
    .ofExcept (hterms.combine_sub value)

/-- A line that takes a term away comes to what the line that adds it with its first factor flipped
comes to. -/
theorem Expr.flipFirst_simulates (definer : Definer σ) (left : Sum) (last : Term)
    (target : Option VarRef) :
    Simulates (Progress.Equiv (· = ·)) Outcome.Equiv
      ((Expr.mk (.join left .sub last) target).evaluate definer)
      ((Expr.mk (.join left .add last.flipFirst) target).evaluate definer) :=
  Expr.evaluate_simulates_of_eval rfl
    ((Expr.eval_simulates (.refl .refl .refl definer) (.mk (.join left .sub last) target)).trans
      (left.flipFirst_simulates last) fun _ _ _ => .trans)

/-- If the sign of one factor of a term is changed, the term evaluates to the opposite value, or
fails in the same way, and ends in the same state. An expression that takes a term away from a sum
evaluates to the same value, up to the terms of its fractions, as the one that adds the term with
the sign of its first factor changed, or fails in the same way, also as a line with a target. -/
theorem Term.sign_law (definer : Definer σ) (before : Progress σ) :
    (∀ term term' : Term, term.FlipsOne term' →
      Parallel (· = ·) (fun value value' => value.Opposed value' ∧ value'.Equiv value.negate)
        (term.eval definer before) (term'.eval definer before)) ∧
      ∀ (left : Sum) (last : Term) (target : Option VarRef),
        Parallel (· = ·) Value.Equiv
            ((Expr.mk (.join left .sub last) target).eval definer before)
            ((Expr.mk (.join left .add last.flipFirst) target).eval definer before) ∧
          Parallel (Progress.Equiv (· = ·)) Outcome.Equiv
            ((Expr.mk (.join left .sub last) target).evaluate definer before)
            ((Expr.mk (.join left .add last.flipFirst) target).evaluate definer before) := by
  refine ⟨fun term term' hflips => ?_, fun left last target => ⟨?_, ?_⟩⟩
  · exact (hflips.eval_simulates definer before before rfl).mono fun _ _ hopposed =>
      ⟨hopposed, hopposed.equiv_negate⟩
  · exact left.flipFirst_simulates last before before rfl
  · exact Expr.flipFirst_simulates definer left last target before before (.refl before)

/-- `6 / 4 * 2` and `6 / 4 * -2`, where the sign of a factor of the second run is changed. -/
theorem Term.sign_law_second_run :
    let number := fun (negated : Bool) (value : Nat) => Factor.mk negated (.number value)
    let divided := Term.join (.factor (number false 6)) .div (number false 4)
    let term := Term.join divided .mul (number false 2)
    let term' := Term.join divided .mul (number true 2)
    let definer : Definer Unit :=
      ⟨fun _ user => (none, user), fun _ user => (none, user), fun user => (none, user)⟩
    let before : Progress Unit := ⟨Slots.fresh 2 2, (), []⟩
    let quotient : Value := .scalar ⟨3, 4, by decide⟩
    term.FlipsOne term' ∧ ∃ value after, term.eval definer before = .ok quotient after ∧
      term'.eval definer before = .ok value after ∧ quotient.Opposed value := by
  intro number divided term term' definer before quotient
  have hflips : term.FlipsOne term' := .last divided .mul (number false 2)
  have hlaw := (Term.sign_law definer before).1 term term' hflips
  have hquotient : (match term.eval definer before with
      | .ok value _ => some value
      | .error _ _ => none) = some quotient := by
    decide +kernel
  generalize term.eval definer before = result at hlaw hquotient ⊢
  generalize term'.eval definer before = result' at hlaw ⊢
  cases hlaw with
  | ok hvalues hafter =>
    cases hquotient
    cases hafter
    exact ⟨hflips, _, _, rfl, rfl, hvalues.1⟩
  | error failure hafter => cases hquotient

end MatrixCalc
