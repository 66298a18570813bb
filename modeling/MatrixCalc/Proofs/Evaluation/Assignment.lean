import MatrixCalc.Proofs.Evaluation.Congruence
import MatrixCalc.Proofs.Evaluation.Variables

/-!
# A variable stands for what was assigned to it

`Expr.evaluate_replace`: after an assignment, a line that reads the variable evaluates to the same
value as one in which the assigned expression stands in parentheses instead, evaluated before the
assignment, or fails in the same way. This is so although the variable holds a scalar in lowest
terms, and although the assignment also stores the last result, if the line does not read that.
-/

namespace MatrixCalc

variable {σ : Type}

open Evaluation (Keeps Simulates final succeeds exists_of_succeeds)

/-- A slot holds a value of the same kind that is equal to what was stored. -/
theorem Value.stored_equiv (value : Value) : value.stored.Equiv value := by
  cases value with
  | scalar a => exact .scalar (Fraction.equiv_iff.2 a.toRat_reduce)
  | matrix m => exact .refl _

/-- The contents after two writes of one value. -/
theorem Slots.Overwritten.get_pair {before after : Slots} {first second : Slot} {value : Value}
    (h : Overwritten before [(first, value), (second, value)] after) (slot : Slot) :
    after.get slot =
      if slot = first ∨ slot = second then value.stored else before.get slot := by
  rw [h.contents, overwrite, List.foldl_cons, List.foldl_cons, List.foldl_nil]
  by_cases hsecond : slot = second
  · rw [if_pos (.inr hsecond), hsecond, Function.update_self]
  · rw [Function.update_of_ne hsecond]
    by_cases hfirst : slot = first
    · rw [if_pos (.inl hfirst), hfirst, Function.update_self]
    · rw [Function.update_of_ne hfirst, if_neg (not_or.2 ⟨hfirst, hsecond⟩)]

/-- A tree that asks for nothing leaves the state as it is. -/
theorem Expr.eval_keeps_state (expr : Expr) (hwf : expr.WellFormedInside)
    (hreads : ∀ ref ∈ expr.refs, ref.defines = false) (definer : Definer σ) :
    Keeps (· = ·) (expr.eval definer) := by
  refine expr.eval_keeps fun ref href before => ?_
  obtain ⟨slot, rfl⟩ := (expr.wellFormed_of_mem_refs hwf ref href).exists_ref (hreads ref href)
  rw [slot.eval_ref]
  rfl

/-- An assignment that succeeds has stored the value in the variable and as the last result. -/
theorem Expr.evaluate_assign {expr : Expr} {slot : Slot} {definer : Definer σ}
    {before after : Progress σ} {outcome : Outcome}
    (h : (Expr.mk expr.sum (some slot.ref)).evaluate definer before = .ok outcome after) :
    ∃ middle, expr.eval definer before = .ok outcome.value middle ∧
      Slots.Overwritten middle.slots
        [(slot, outcome.value), (Slot.last outcome.value.kind, outcome.value)] after.slots := by
  obtain ⟨sum, target⟩ := expr
  rw [eval]
  cases hresult : sum.eval definer before with
  | error failure middle =>
    have hrun := evaluate_of_eval_error hresult (some slot)
    cases h.symm.trans hrun
  | ok value middle =>
    obtain ⟨-, failure, -, -, hrun⟩ | hrun := evaluate_value_cases sum (some slot) value
    · cases h.symm.trans (hrun hresult)
    · obtain ⟨slots, hslots, hended⟩ := hrun hresult
      cases h.symm.trans hended
      exact ⟨middle, rfl, hslots⟩

/-- A variable read after an assignment, beside the assigned expression in its place before. -/
theorem Slot.ref_simulates {inner : Expr} {slot other : Slot} {definer : Definer σ}
    {before after : Progress σ} {value : Value}
    (hvalue : inner.eval definer before = .ok value before)
    (hslots : Slots.Overwritten before.slots [(slot, value), (Slot.last value.kind, value)]
      after.slots)
    (hlast : other = Slot.last value.kind → other = slot) :
    Simulates (fun left right => left = after ∧ right = before) Value.Equiv
      (other.ref.eval definer)
      ((if other.ref = slot.ref then .group inner else .variable other.ref : Operand).eval
        definer) := by
  rintro _ _ ⟨rfl, rfl⟩
  rw [other.eval_ref, hslots.get_pair]
  by_cases hsame : other = slot
  · subst hsame
    rw [if_pos (.inl rfl), if_pos rfl]
    show Evaluation.Parallel _ _ _ (inner.eval definer _)
    rw [hvalue]
    exact .ok value.stored_equiv ⟨rfl, rfl⟩
  · have hother : other ≠ Slot.last value.kind := fun h => hsame (hlast h)
    rw [if_neg (not_or.2 ⟨hsame, hother⟩), if_neg fun h => hsame (Slot.ref_injective h)]
    show Evaluation.Parallel _ _ _ (other.ref.eval definer _)
    rw [other.eval_ref]
    exact .ok (.refl _) ⟨rfl, rfl⟩

/-- A tree after an assignment, beside the one with the assigned expression in the place of the
variable before. -/
theorem Expr.replace_simulates {inner expr : Expr} {slot : Slot} {definer : Definer σ}
    {before after : Progress σ} {value : Value} (hwf : expr.WellFormedInside)
    (hreads : ∀ ref ∈ expr.refs, ref.defines = false)
    (hvalue : inner.eval definer before = .ok value before)
    (hslots : Slots.Overwritten before.slots [(slot, value), (Slot.last value.kind, value)]
      after.slots)
    (hlast : (Slot.last value.kind).ref ∈ expr.refs → Slot.last value.kind = slot) :
    Simulates (fun left right => left = after ∧ right = before) Value.Equiv (expr.eval definer)
      ((expr.replace slot.ref inner).eval definer) := by
  refine expr.substitute_simulates Value.isRespected_equiv fun ref href => ?_
  obtain ⟨other, rfl⟩ := (expr.wellFormed_of_mem_refs hwf ref href).exists_ref (hreads ref href)
  refine Slot.ref_simulates hvalue hslots fun hother => ?_
  subst hother
  exact hlast href

/-- Let `inner` and `expr` be lines that ask for nothing and assign nothing, and let `inner` be
assigned to a variable. Then `expr` evaluates to the same value as it does before the assignment
with `inner` in the place of the variable, or fails in the same way, unless it reads the last
result where this is another variable. -/
theorem Expr.evaluate_replace {source source' : String} {inner expr : Expr}
    (hinner : Expr.parse source = .ok inner) (hexpr : Expr.parse source' = .ok expr)
    (htarget : inner.target = none) (htarget' : expr.target = none)
    (hreads : ∀ ref ∈ inner.refs, ref.defines = false)
    (hreads' : ∀ ref ∈ expr.refs, ref.defines = false) (slot : Slot) (definer : Definer σ)
    {before after : Progress σ} {outcome : Outcome}
    (hassign : (Expr.mk inner.sum (some slot.ref)).evaluate definer before = .ok outcome after)
    (hlast : (Slot.last outcome.value.kind).ref ∈ expr.refs →
      Slot.last outcome.value.kind = slot) :
    match expr.evaluate definer after, (expr.replace slot.ref inner).evaluate definer before with
    | .ok result _, .ok result' _ => result.value.Equiv result'.value
    | .error failure _, .error failure' _ => failure = failure'
    | _, _ => False := by
  obtain ⟨innerSum, _⟩ := inner
  obtain ⟨sum, _⟩ := expr
  cases htarget
  cases htarget'
  have hwf : (Expr.mk innerSum none).WellFormedInside := ⟨rfl, (wellFormed_of_parse hinner).sum⟩
  have hwf' : (Expr.mk sum none).WellFormedInside := ⟨rfl, (wellFormed_of_parse hexpr).sum⟩
  obtain ⟨middle, hvalue, hslots⟩ := evaluate_assign hassign
  -- the assigned expression was evaluated without a change of the state
  have hmiddle : before = middle :=
    ((Expr.mk innerSum none).eval_keeps_state hwf hreads definer before).trans
      (congrArg final hvalue)
  subst hmiddle
  have hends := replace_simulates hwf' hreads' hvalue hslots hlast after before ⟨rfl, rfl⟩
  obtain ⟨replaced, hreplaced⟩ : ∃ replaced,
      (Expr.mk sum none).replace slot.ref (.mk innerSum none) = .mk replaced none := ⟨_, rfl⟩
  rw [hreplaced, eval, eval] at hends
  rw [hreplaced, evaluate_none, evaluate_none]
  generalize sum.eval definer after = result at hends ⊢
  generalize replaced.eval definer before = result' at hends ⊢
  cases hends with
  | ok hvalues hstates => exact hvalues
  | error failure hstates => rfl

/-- `1 / 2 + 1 / 2 -> b` and then `identity(b)`: the variable holds one over one, and the sum in its
place is four over four. -/
theorem Expr.evaluate_replace_identity :
    let definer : Definer Unit := ⟨fun _ user => (none, user), fun _ user => (none, user),
      fun user => (none, user)⟩
    let before : Progress Unit := ⟨.fresh 2 2, (), []⟩
    let slot : Slot := .scalar 1
    ∃ inner expr outcome after result result' last last',
      Expr.parse "1 / 2 + 1 / 2" = .ok inner ∧ Expr.parse "identity(b)" = .ok expr ∧
        (Expr.mk inner.sum (some slot.ref)).evaluate definer before = .ok outcome after ∧
        expr.evaluate definer after = .ok result last ∧
        (expr.replace slot.ref inner).evaluate definer before = .ok result' last' ∧
        result.value.Equiv result'.value := by
  intro definer before slot
  let half := Term.join (.factor (.mk false (.number 1))) .div (.mk false (.number 2))
  let inner := Expr.mk (.join (.term half) .add half) none
  let expr := Expr.mk (.term (.factor (.mk false (.call "identity" (.cons (.mk (.term (.factor
    (.mk false (.variable slot.ref)))) none) .nil))))) none
  have hwf : inner.WellFormed := by
    have hone : Numeral.fits 1 = true := by decide +kernel
    have htwo : Numeral.fits 2 = true := by decide +kernel
    exact ⟨⟨⟨hone, htwo⟩, hone, htwo⟩, by decide, nofun⟩
  have hwf' : expr.WellFormed := by
    have hname : FunctionName "identity" := ⟨by decide, List.all_eq_true.1 rfl⟩
    exact ⟨⟨hname, nofun, ⟨rfl, 'b', rfl, rfl⟩, trivial⟩, by decide, nofun⟩
  have hparse : Expr.parse "1 / 2 + 1 / 2" = .ok inner := by
    have htext : inner.text = "1 / 2 + 1 / 2" := by decide +kernel
    rw [← htext]
    exact hwf.parse_text
  have hparse' : Expr.parse "identity(b)" = .ok expr := by
    have htext : expr.text = "identity(b)" := by decide +kernel
    rw [← htext]
    exact hwf'.parse_text
  have hassigns : succeeds ((Expr.mk inner.sum (some slot.ref)).evaluate definer before) =
      true := by decide +kernel
  have hsucceeds : succeeds ((expr.replace slot.ref inner).evaluate definer before) = true := by
    decide +kernel
  obtain ⟨outcome, after, hassign⟩ := exists_of_succeeds hassigns
  obtain ⟨result', last', hresult'⟩ := exists_of_succeeds hsucceeds
  have hlast : ∀ kind, (Slot.last kind).ref ∉ expr.refs := by
    intro kind
    cases kind <;> decide
  have hequiv := evaluate_replace hparse hparse' rfl rfl nofun (by decide) slot definer hassign
    fun hmem => absurd hmem (hlast _)
  rw [hresult'] at hequiv
  cases hresult : expr.evaluate definer after with
  | error failure last =>
    rw [hresult] at hequiv
    cases hequiv
  | ok result last =>
    rw [hresult] at hequiv
    exact ⟨inner, expr, outcome, after, result, result', last, last', hparse, hparse', hassign,
      hresult, hresult', hequiv⟩

end MatrixCalc
