import MatrixCalc.Proofs.Evaluation.Simulation
import MatrixCalc.Proofs.Syntax.References
import MatrixCalc.Proofs.Syntax.Substitution
import MatrixCalc.Proofs.Value

/-!
# Evaluation respects related values

`Expr.substitute_simulates`: a tree in which each reference is replaced by an operand that
evaluates to a related value evaluates to a related value itself, or fails in the same way. It
says this for any relation between values that the operations respect (`Value.IsRespected`), such
as equivalence or equality, and any relation between the states of the two evaluations that the
references and the operands keep.
-/

namespace MatrixCalc

open Evaluation (Simulates)

variable {σ τ : Type}

/-! ## Relations that operations respect -/

/-- From related values the operations make related values, or fail in the same way. -/
structure Value.IsRespected (R : Value → Value → Prop) : Prop where
  refl : ∀ value, R value value
  negate : ∀ {a b}, R a b → R a.negate b.negate
  multiply : ∀ {a b c d}, R a b → R c d → Agree R (a.multiply c) (b.multiply d)
  divide : ∀ {a b c d}, R a b → R c d → Agree R (a.divide c) (b.divide d)
  combine : ∀ {a b c d}, R a b → R c d → ∀ op : AddOp, Agree R (a.combine op c) (b.combine op d)
  call : ∀ (builtin : Builtin) {values values' : List Value}, List.Forall₂ R values values' →
    Agree R (builtin.call values) (builtin.call values')

/-- The operations respect equivalence of values. -/
theorem Value.isRespected_equiv : IsRespected Equiv :=
  ⟨.refl, .negate, Equiv.multiply, Equiv.divide, Equiv.combine, Builtin.call_agree⟩

/-- The operations respect equality, since they are functions. -/
theorem Value.isRespected_eq : IsRespected (· = ·) where
  refl _ := rfl
  negate := by rintro _ _ rfl; rfl
  multiply := by rintro _ _ _ _ rfl rfl; exact .refl _
  divide := by rintro _ _ _ _ rfl rfl; exact .refl _
  combine := by rintro _ _ _ _ rfl rfl op; exact .refl _
  call builtin values values' h := by
    rw [List.forall₂_eq_eq_eq] at h
    rw [h]
    exact .refl _

/-! ## Runs -/

variable {R : Value → Value → Prop}

/-- Runs whose values are pairwise related. -/
structure Runs.Related (R : Value → Value → Prop) (runs runs' : Runs) : Prop where
  closed : List.Forall₂ R runs.closed runs'.closed
  current : R runs.current runs'.current

namespace Runs.Related

variable {runs runs' : Runs}

/-- Taking one more factor keeps runs related, or fails in the same way. -/
theorem extend (hR : Value.IsRespected R) (h : Related R runs runs') (op : MulOp)
    {value value' : Value} (hvalue : R value value') :
    Agree (Related R) (runs.extend op value) (runs'.extend op value') := by
  cases op with
  | mul => exact (hR.multiply h.current hvalue).map fun _ _ hproduct => ⟨h.closed, hproduct⟩
  | div => exact .ok ⟨.cons h.current h.closed, hvalue⟩

/-- Dividing by related values one after the other gives related quotients, or fails in the same
way. -/
theorem foldlM_divide (hR : Value.IsRespected R) {divisors divisors' : List Value}
    (h : List.Forall₂ R divisors divisors') {start start' : Value} (hstart : R start start') :
    Agree R (divisors.foldlM Value.divide start) (divisors'.foldlM Value.divide start') := by
  induction h generalizing start start' with
  | nil => exact .ok hstart
  | cons hfirst _ ih =>
    rw [List.foldlM_cons, List.foldlM_cons]
    exact (hR.divide hstart hfirst).bind fun _ _ hquotient => ih hquotient

/-- Related runs have related quotients, or fail in the same way. -/
theorem divideAll (hR : Value.IsRespected R) (h : Related R runs runs') :
    Agree R runs.divideAll runs'.divideAll := by
  have hreverse : List.Forall₂ R (runs.current :: runs.closed).reverse
      (runs'.current :: runs'.closed).reverse :=
    List.rel_reverse (.cons h.current h.closed)
  unfold Runs.divideAll
  -- the runs are stored with the latest first, but divided from the first to the last
  generalize (runs.current :: runs.closed).reverse = factors at hreverse ⊢
  generalize (runs'.current :: runs'.closed).reverse = factors' at hreverse ⊢
  cases hreverse with
  | nil => exact .ok h.current
  | cons hfirst hrest => exact foldlM_divide hR hrest hfirst

end Runs.Related

/-- Terms whose runs are related have related values. -/
theorem Evaluation.divided_simulates (hR : Value.IsRespected R)
    {S : Progress σ → Progress τ → Prop} {runs : Evaluation σ Runs} {runs' : Evaluation τ Runs}
    (h : Simulates S (Runs.Related R) runs runs') : Simulates S R (divided runs) (divided runs') :=
  h.bind fun _ _ hruns => .ofExcept (hruns.divideAll hR)

/-! ## Trees -/

variable {definer : Definer σ} {definer' : Definer τ} {S : Progress σ → Progress τ → Prop}
  {inner : VarRef → Operand}

mutual
/-- A tree and the tree in which its references are replaced by operands have related values, if
each reference and its operand have. -/
theorem Expr.substitute_simulates (hR : Value.IsRespected R) (expr : Expr)
    (hrefs : ∀ ref ∈ expr.refs, Simulates S R (ref.eval definer) ((inner ref).eval definer')) :
    Simulates S R (expr.eval definer) ((expr.substitute inner).eval definer') := by
  obtain ⟨sum, target⟩ := expr
  exact sum.substitute_simulates hR hrefs

@[inherit_doc Expr.substitute_simulates]
theorem Sum.substitute_simulates (hR : Value.IsRespected R) (sum : Sum)
    (hrefs : ∀ ref ∈ sum.refs, Simulates S R (ref.eval definer) ((inner ref).eval definer')) :
    Simulates S R (sum.eval definer) ((sum.substitute inner).eval definer') := by
  cases sum with
  | term last => exact Evaluation.divided_simulates hR (last.substitute_simulates hR hrefs)
  | join before op last =>
    obtain ⟨hbefore, hlast⟩ := List.forall_mem_append.1 hrefs
    refine (before.substitute_simulates hR hbefore).bind fun left left' hleft => ?_
    refine (Evaluation.divided_simulates hR (last.substitute_simulates hR hlast)).bind
      fun right right' hright => ?_
    exact .ofExcept (hR.combine hleft hright op)

/-- A term and the term in which its references are replaced have related runs. -/
theorem Term.substitute_simulates (hR : Value.IsRespected R) (term : Term)
    (hrefs : ∀ ref ∈ term.refs, Simulates S R (ref.eval definer) ((inner ref).eval definer')) :
    Simulates S (Runs.Related R) (term.evalRuns definer)
      ((term.substitute inner).evalRuns definer') := by
  cases term with
  | factor last =>
    exact (last.substitute_simulates hR hrefs).bind fun value value' hvalue => .pure ⟨.nil, hvalue⟩
  | join before op last =>
    obtain ⟨hbefore, hlast⟩ := List.forall_mem_append.1 hrefs
    refine (before.substitute_simulates hR hbefore).bind fun runs runs' hruns => ?_
    exact (last.substitute_simulates hR hlast).bind fun value value' hvalue =>
      .ofExcept (hruns.extend hR op hvalue)

@[inherit_doc Expr.substitute_simulates]
theorem Factor.substitute_simulates (hR : Value.IsRespected R) (factor : Factor)
    (hrefs : ∀ ref ∈ factor.refs, Simulates S R (ref.eval definer) ((inner ref).eval definer')) :
    Simulates S R (factor.eval definer) ((factor.substitute inner).eval definer') := by
  obtain ⟨negated, operand⟩ := factor
  refine (operand.substitute_simulates hR hrefs).bind fun value value' hvalue => .pure ?_
  cases negated with
  | true => exact hR.negate hvalue
  | false => exact hvalue

@[inherit_doc Expr.substitute_simulates]
theorem Operand.substitute_simulates (hR : Value.IsRespected R) (operand : Operand)
    (hrefs : ∀ ref ∈ operand.refs, Simulates S R (ref.eval definer) ((inner ref).eval definer')) :
    Simulates S R (operand.eval definer) ((operand.substitute inner).eval definer') := by
  cases operand with
  | number value => exact .pure (hR.refl _)
  | «variable» ref => exact hrefs ref List.mem_cons_self
  | group expr => exact expr.substitute_simulates hR hrefs
  | call function supplied =>
    refine Simulates.bind_same (Builtin.find function) fun builtin => ?_
    exact (supplied.substitute_simulates hR hrefs).bind fun values values' hvalues =>
      .ofExcept (hR.call builtin hvalues)

/-- Arguments and those in which their references are replaced have pairwise related values. -/
theorem Arguments.substitute_simulates (hR : Value.IsRespected R) (supplied : Arguments)
    (hrefs : ∀ ref ∈ supplied.refs, Simulates S R (ref.eval definer) ((inner ref).eval definer')) :
    Simulates S (List.Forall₂ R) (supplied.eval definer)
      ((supplied.substitute inner).eval definer') := by
  cases supplied with
  | nil => exact .pure .nil
  | cons first rest =>
    obtain ⟨hfirst, hrest⟩ := List.forall_mem_append.1 hrefs
    refine (first.substitute_simulates hR hfirst).bind fun value value' hvalue => ?_
    exact (rest.substitute_simulates hR hrest).bind fun values values' hvalues =>
      .pure (.cons hvalue hvalues)
end

end MatrixCalc
