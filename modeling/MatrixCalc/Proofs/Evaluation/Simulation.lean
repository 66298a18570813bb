import MatrixCalc.Proofs.Agreement
import MatrixCalc.Proofs.Evaluation.Basic

/-!
# Two evaluations side by side

`Simulates S R left right` says that two evaluations, started in states related by `S`, either
both succeed with values related by `R`, or both fail in the same way, and end in states related
by `S` again. Evaluations that are built alike from evaluations that simulate each other do so
themselves (`Simulates.bind`). Those that ask for values need users who give related answers
(`Definer.Related`).
-/

namespace MatrixCalc

variable {σ τ α β γ δ : Type}

/-! ## Answers -/

/-- An answer is related to itself, also if there is none. -/
theorem optionRel_refl {R : α → α → Prop} (hR : ∀ value, R value value) :
    ∀ answer : Option α, Option.Rel R answer answer
  | none => .none
  | some value => .some (hR value)

/-- Answers that are related by equality are equal. -/
theorem eq_of_optionRel {answer answer' : Option α} (h : Option.Rel (· = ·) answer answer') :
    answer = answer' := by
  cases h with
  | none => rfl
  | some hvalues => exact congrArg some hvalues

/-- Two users whose states are related give related answers, or both give none, and their states
are related again. -/
def RelatedAnswers (U : σ → τ → Prop) (R : α → β → Prop) (answer : σ → Option α × σ)
    (answer' : τ → Option β × τ) : Prop :=
  ∀ user user', U user user' →
    Option.Rel R (answer user).1 (answer' user').1 ∧ U (answer user).2 (answer' user').2

/-- Two definers whose states are related give related matrices, related scalars, or no answer. -/
structure Definer.Related (M : RatMatrix → RatMatrix → Prop) (F : Fraction → Fraction → Prop)
    (U : σ → τ → Prop) (definer : Definer σ) (definer' : Definer τ) : Prop where
  matrix : ∀ name, RelatedAnswers U M (definer.matrix name) (definer'.matrix name)
  scalar : ∀ name, RelatedAnswers U F (definer.scalar name) (definer'.scalar name)
  anonymous : RelatedAnswers U M definer.anonymous definer'.anonymous

/-- A definer gives the same answers as itself from the same state. -/
theorem Definer.Related.refl {M : RatMatrix → RatMatrix → Prop} {F : Fraction → Fraction → Prop}
    (hM : ∀ m, M m m) (hF : ∀ a, F a a) (definer : Definer σ) :
    Related M F (· = ·) definer definer where
  matrix := by
    rintro name user _ rfl
    exact ⟨optionRel_refl hM _, rfl⟩
  scalar := by
    rintro name user _ rfl
    exact ⟨optionRel_refl hF _, rfl⟩
  anonymous := by
    rintro user _ rfl
    exact ⟨optionRel_refl hM _, rfl⟩

namespace Evaluation

/-! ## Evaluations -/

/-- The endings of two evaluations: two related values or one failure, in related states. -/
inductive Parallel (S : Progress σ → Progress τ → Prop) (R : α → β → Prop) :
    EStateM.Result Failure (Progress σ) α → EStateM.Result Failure (Progress τ) β → Prop
  | ok {value : α} {value' : β} {after : Progress σ} {after' : Progress τ}
      (hvalues : R value value') (hstates : S after after') :
      Parallel S R (.ok value after) (.ok value' after')
  | error (failure : Failure) {after : Progress σ} {after' : Progress τ}
      (hstates : S after after') : Parallel S R (.error failure after) (.error failure after')

/-- Endings whose values are related are so by any weaker relation. -/
theorem Parallel.mono {S : Progress σ → Progress τ → Prop} {R T : α → β → Prop}
    {result : EStateM.Result Failure (Progress σ) α}
    {result' : EStateM.Result Failure (Progress τ) β} (h : Parallel S R result result')
    (hvalues : ∀ value value', R value value' → T value value') : Parallel S T result result' := by
  cases h with
  | ok hrelated hafter => exact .ok (hvalues _ _ hrelated) hafter
  | error failure hafter => exact .error failure hafter

/-- Started in related states, two evaluations end alike. -/
def Simulates (S : Progress σ → Progress τ → Prop) (R : α → β → Prop) (left : Evaluation σ α)
    (right : Evaluation τ β) : Prop :=
  ∀ before before', S before before' → Parallel S R (left before) (right before')

namespace Simulates

variable {S : Progress σ → Progress τ → Prop} {R : α → β → Prop} {T : γ → δ → Prop}

/-- From one state an evaluation ends in one way. -/
theorem refl (evaluation : Evaluation σ α) :
    Simulates (· = ·) (· = ·) evaluation evaluation := by
  rintro before _ rfl
  cases evaluation before with
  | ok value after => exact .ok rfl rfl
  | error failure after => exact .error failure rfl

/-- The second evaluation may be exchanged for one that ends in the same states. -/
theorem trans {left : Evaluation σ α} {middle : Evaluation τ β} {right : Evaluation τ γ}
    {R' : β → γ → Prop} {R'' : α → γ → Prop} (h : Simulates S R left middle)
    (h' : Simulates (· = ·) R' middle right) (hvalues : ∀ a b c, R a b → R' b c → R'' a c) :
    Simulates S R'' left right := by
  intro before before' hstates
  have hfirst := h before before' hstates
  have hsecond := h' before' before' rfl
  generalize left before = result at hfirst ⊢
  generalize middle before' = result' at hfirst hsecond
  generalize right before' = result'' at hsecond ⊢
  cases hfirst with
  | ok hab hafter =>
    obtain ⟨hbc, rfl⟩ := hsecond
    exact .ok (hvalues _ _ _ hab hbc) hafter
  | error failure hafter =>
    obtain _ | ⟨_, rfl⟩ := hsecond
    exact .error failure hafter

/-- Returning related values. -/
theorem pure {value : α} {value' : β} (h : R value value') :
    Simulates S R (Pure.pure value) (Pure.pure value') :=
  fun _ _ hstates => .ok h hstates

/-- Two evaluations in a row simulate two in a row if each does. -/
theorem bind {left : Evaluation σ α} {right : Evaluation τ β} {next : α → Evaluation σ γ}
    {next' : β → Evaluation τ δ} (h : Simulates S R left right)
    (hnext : ∀ a b, R a b → Simulates S T (next a) (next' b)) :
    Simulates S T (left >>= next) (right >>= next') := by
  intro before before' hstates
  have hparallel := h before before' hstates
  rw [bind_apply, bind_apply]
  generalize left before = result at hparallel ⊢
  generalize right before' = result' at hparallel ⊢
  cases hparallel with
  | ok hvalues hafter => exact hnext _ _ hvalues _ _ hafter
  | error failure hafter => exact .error failure hafter

/-- Results that agree and do not depend on the state. -/
theorem ofExcept {result : Except Failure α} {result' : Except Failure β}
    (h : Agree R result result') :
    Simulates S R (Evaluation.ofExcept result) (Evaluation.ofExcept result') := by
  cases h with
  | ok hvalues => exact pure hvalues
  | error failure => exact fun _ _ hstates => .error failure hstates

/-- Going on with the value of a result that does not depend on the states. -/
theorem bind_same {next : α → Evaluation σ γ} {next' : α → Evaluation τ δ}
    (result : Except Failure α) (hnext : ∀ a, Simulates S T (next a) (next' a)) :
    Simulates S T (Evaluation.ofExcept result >>= next) (Evaluation.ofExcept result >>= next') := by
  refine (ofExcept (Agree.refl result)).bind fun a b hab => ?_
  subst hab
  exact hnext a

/-- Looks at the slots that agree in related states. -/
theorem read {look : Slots → Except Failure α} {look' : Slots → Except Failure β}
    (h : ∀ before before', S before before' → Agree R (look before.slots) (look' before'.slots)) :
    Simulates S R (Evaluation.read look) (Evaluation.read look') :=
  fun before before' hstates => ofExcept (h before before' hstates) before before' hstates

/-- Writes that are refused alike, and else lead to related states. -/
theorem write {change change' : Slots → Except Failure Slots}
    (h : ∀ before before', S before before' →
      Agree (fun slots slots' => S { before with slots } { before' with slots := slots' })
        (change before.slots) (change' before'.slots)) :
    Simulates S (fun _ _ => True) (Evaluation.write change) (Evaluation.write change') := by
  intro before before' hstates
  have hagree := h before before' hstates
  rw [write_apply, write_apply]
  generalize change before.slots = result at hagree ⊢
  generalize change' before'.slots = result' at hagree ⊢
  cases hagree with
  | ok hslots => exact .ok trivial hslots
  | error failure => exact .error failure hstates

/-- Requests with related answers that lead to related states. -/
theorem ask {answer : σ → Option α × σ} {answer' : τ → Option β × τ}
    {exchange : Option α → Exchange} {exchange' : Option β → Exchange}
    (h : ∀ before before', S before before' →
      Option.Rel R (answer before.user).1 (answer' before'.user).1 ∧
        S (asked before answer exchange) (asked before' answer' exchange')) :
    Simulates S R (Evaluation.ask answer exchange) (Evaluation.ask answer' exchange') := by
  intro before before' hstates
  obtain ⟨hvalues, hafter⟩ := h before before' hstates
  rw [ask_apply, ask_apply]
  cases hvalue : (answer before.user).1 with
  | none =>
    cases hvalue' : (answer' before'.user).1 with
    | none => exact .error _ hafter
    | some value' =>
      rw [hvalue, hvalue'] at hvalues
      cases hvalues
  | some value =>
    cases hvalue' : (answer' before'.user).1 with
    | none =>
      rw [hvalue, hvalue'] at hvalues
      cases hvalues
    | some value' =>
      rw [hvalue, hvalue'] at hvalues
      cases hvalues with
      | some hrelated => exact .ok hrelated hafter

end Simulates

end Evaluation

end MatrixCalc
