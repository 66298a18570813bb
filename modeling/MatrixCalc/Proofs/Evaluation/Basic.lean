import MatrixCalc.Evaluation
import MatrixCalc.Proofs.Agreement
import Mathlib.Order.Defs.Unbundled

/-!
# Single steps of an evaluation

What reading, writing and asking do to the state of an evaluation. `Keeps T evaluation` says that
the states before and after an evaluation are related by `T`, also if it fails; for a reflexive
and transitive relation this follows from the steps. `Yields P E evaluation` speaks of the values
and failures of an evaluation in the same way.
-/

namespace MatrixCalc.Evaluation

variable {σ α β : Type}

/-- The state after an exchange: the definer has moved on, and the exchange is taken down. -/
def asked (before : Progress σ) (answer : σ → Option α × σ) (exchange : Option α → Exchange) :
    Progress σ :=
  { before with
    user := (answer before.user).2
    exchanges := before.exchanges ++ [exchange (answer before.user).1] }

/-- The second of two evaluations starts in the state in which the first has ended, and does not
start if that has failed. -/
theorem bind_apply (first : Evaluation σ α) (next : α → Evaluation σ β) (before : Progress σ) :
    (first >>= next) before =
      match first before with
      | .ok value after => next value after
      | .error failure after => .error failure after := by
  show EStateM.bind first next before = _
  unfold EStateM.bind
  cases first before <;> rfl

/-- Two evaluations in a row have a value exactly if each has one in its turn. -/
theorem bind_eq_ok_iff {first : Evaluation σ α} {next : α → Evaluation σ β} {value : β}
    {before after : Progress σ} :
    (first >>= next) before = .ok value after ↔
      ∃ given middle, first before = .ok given middle ∧ next given middle = .ok value after := by
  rw [bind_apply]
  cases first before with
  | ok given middle => simp
  | error failure middle => simp

/-- A result that does not depend on the state leaves it as it is. -/
theorem ofExcept_apply (result : Except Failure α) (before : Progress σ) :
    ofExcept result before =
      match result with
      | .ok value => .ok value before
      | .error failure => .error failure before := by
  cases result <;> rfl

/-- A result that does not depend on the state is a value exactly if it was one, in the same
state. -/
theorem ofExcept_eq_ok_iff {result : Except Failure α} {value : α} {before after : Progress σ} :
    ofExcept result before = .ok value after ↔ result = .ok value ∧ before = after := by
  rw [ofExcept_apply]
  cases result <;> simp

/-- A write that is refused leaves the state as it was. -/
theorem write_apply (change : Slots → Except Failure Slots) (before : Progress σ) :
    write change before =
      match change before.slots with
      | .ok slots => .ok () { before with slots }
      | .error failure => .error failure before := by
  show EStateM.bind (ofExcept (change before.slots)) _ before = _
  cases change before.slots <;> rfl

/-- A write that is not refused changes the slots and nothing else. -/
theorem write_eq_ok {change : Slots → Except Failure Slots} {before : Progress σ} {slots : Slots}
    (h : change before.slots = .ok slots) :
    write change before = .ok () { before with slots } := by
  rw [write_apply, h]

/-- A look at the slots that is not refused leaves the state as it was. -/
theorem read_eq_ok {look : Slots → Except Failure α} {before : Progress σ} {value : α}
    (h : look before.slots = .ok value) : read look before = .ok value before := by
  show ofExcept (look before.slots) before = _
  rw [h]
  rfl

/-- An exchange is taken down whether or not there is an answer. -/
theorem ask_apply (answer : σ → Option α × σ) (exchange : Option α → Exchange)
    (before : Progress σ) :
    ask answer exchange before =
      match (answer before.user).1 with
      | some value => .ok value (asked before answer exchange)
      | none => .error (Failure.because .cancelled) (asked before answer exchange) := by
  have hget : (get : Evaluation σ (Progress σ)) before = .ok before before := rfl
  rw [ask, bind_apply, hget, asked]
  dsimp only
  rcases answer before.user with ⟨_ | value, user⟩ <;> rfl

/-! ## What an evaluation keeps -/

/-- The state in which an evaluation ends, whether it succeeds or fails. -/
def final : EStateM.Result Failure (Progress σ) α → Progress σ
  | .ok _ after => after
  | .error _ after => after

/-- Whether an evaluation has given a value. -/
def succeeds : EStateM.Result Failure (Progress σ) α → Bool
  | .ok _ _ => true
  | .error _ _ => false

/-- An evaluation that has succeeded has a value and a last state. -/
theorem exists_of_succeeds {result : EStateM.Result Failure (Progress σ) α}
    (h : succeeds result = true) : ∃ value after, result = .ok value after := by
  cases result with
  | ok value after => exact ⟨value, after, rfl⟩
  | error failure after => cases h

/-- What an evaluation has failed with, if it has. -/
def failure? : EStateM.Result Failure (Progress σ) α → Option Failure
  | .ok _ _ => none
  | .error failure _ => some failure

/-- An evaluation that has failed has a last state, too. -/
theorem exists_of_failure? {result : EStateM.Result Failure (Progress σ) α} {failure : Failure}
    (h : failure? result = some failure) : ∃ after, result = .error failure after := by
  cases result with
  | ok value after => cases h
  | error failure' after =>
    cases h
    exact ⟨after, rfl⟩

/-- Answered or cancelled, a request leads to the same state. -/
theorem final_ask (answer : σ → Option α × σ) (exchange : Option α → Exchange)
    (before : Progress σ) : final (ask answer exchange before) = asked before answer exchange := by
  rw [ask_apply]
  cases (answer before.user).1 <;> rfl

/-- The states before and after an evaluation are related. -/
def Keeps (T : Progress σ → Progress σ → Prop) (evaluation : Evaluation σ α) : Prop :=
  ∀ before, T before (final (evaluation before))

namespace Keeps

variable {T : Progress σ → Progress σ → Prop}

/-- Returning a value leaves the state alone. -/
theorem pure [Std.Refl T] (value : α) : Keeps T (Pure.pure value : Evaluation σ α) :=
  fun before => Std.Refl.refl before

/-- A result that does not depend on the state keeps it. -/
theorem ofExcept [Std.Refl T] (result : Except Failure α) :
    Keeps T (Evaluation.ofExcept result) := by
  intro before
  rw [ofExcept_apply]
  cases result <;> exact Std.Refl.refl before

/-- Looking at the slots keeps the state. -/
theorem read [Std.Refl T] (look : Slots → Except Failure α) : Keeps T (Evaluation.read look) :=
  fun before => ofExcept (look before.slots) before

/-- Two evaluations in a row keep what both of them keep. -/
theorem bind [IsTrans _ T] {first : Evaluation σ α} {next : α → Evaluation σ β}
    (h : Keeps T first) (hnext : ∀ value, Keeps T (next value)) : Keeps T (first >>= next) := by
  intro before
  have hfirst := h before
  rw [bind_apply]
  cases hresult : first before with
  | ok value after =>
    rw [hresult] at hfirst
    exact IsTrans.trans _ _ _ hfirst (hnext value after)
  | error failure after =>
    rw [hresult] at hfirst
    exact hfirst

/-- A write keeps a relation that holds between the state and the same state with the new slots. -/
theorem write [Std.Refl T] {change : Slots → Except Failure Slots}
    (h : ∀ before, Meets (fun slots => T before { before with slots }) (fun _ => True)
      (change before.slots)) : Keeps T (Evaluation.write change) := by
  intro before
  have hchange := h before
  rw [write_apply]
  cases hresult : change before.slots with
  | ok slots =>
    rw [hresult] at hchange
    exact hchange
  | error failure => exact Std.Refl.refl before

/-- A request keeps a relation that holds across every exchange. -/
theorem ask {answer : σ → Option α × σ} {exchange : Option α → Exchange}
    (h : ∀ before, T before (asked before answer exchange)) :
    Keeps T (Evaluation.ask answer exchange) := by
  intro before
  rw [final_ask]
  exact h before

end Keeps

/-! ## What an evaluation yields -/

/-- Every value of an evaluation has one property, and every failure another. -/
def Yields (P : α → Prop) (E : Failure → Prop) (evaluation : Evaluation σ α) : Prop :=
  ∀ before, match evaluation before with
    | .ok value _ => P value
    | .error failure _ => E failure

namespace Yields

variable {P P' : α → Prop} {Q : β → Prop} {E E' : Failure → Prop}

/-- Returning a value yields this value. -/
theorem pure {value : α} (h : P value) : Yields P E (Pure.pure value : Evaluation σ α) :=
  fun _ => h

/-- Weaker properties hold as well. -/
theorem mono {evaluation : Evaluation σ α} (h : Yields P E evaluation)
    (hvalues : ∀ value, P value → P' value) (hfailures : ∀ failure, E failure → E' failure) :
    Yields P' E' evaluation := by
  intro before
  have hbefore := h before
  cases hresult : evaluation before with
  | ok value after =>
    rw [hresult] at hbefore
    exact hvalues value hbefore
  | error failure after =>
    rw [hresult] at hbefore
    exact hfailures failure hbefore

/-- The values of two evaluations in a row are those of the second, the failures those of both. -/
theorem bind {first : Evaluation σ α} {next : α → Evaluation σ β} (h : Yields P E first)
    (hnext : ∀ value, P value → Yields Q E (next value)) : Yields Q E (first >>= next) := by
  intro before
  have hfirst := h before
  rw [bind_apply]
  cases hresult : first before with
  | ok value after =>
    rw [hresult] at hfirst
    exact hnext value hfirst after
  | error failure after =>
    rw [hresult] at hfirst
    exact hfirst

/-- A result that does not depend on the state has its own properties. -/
theorem ofExcept {result : Except Failure α} (h : Meets P E result) :
    Yields P E (Evaluation.ofExcept result : Evaluation σ α) := by
  intro before
  rw [ofExcept_apply]
  cases result with
  | ok value => exact h
  | error failure => exact h

/-- What looking at slots yields is what it yields for all slots. -/
theorem read {look : Slots → Except Failure α} (h : ∀ slots, Meets P E (look slots)) :
    Yields P E (Evaluation.read look : Evaluation σ α) :=
  fun before => ofExcept (h before.slots) before

/-- A write fails in no other way than the change of the slots does. -/
theorem write {change : Slots → Except Failure Slots}
    (h : ∀ slots, Meets (fun _ => True) E (change slots)) :
    Yields (fun _ => True) E (Evaluation.write change : Evaluation σ Unit) := by
  intro before
  have hchange := h before.slots
  rw [write_apply]
  cases hresult : change before.slots with
  | ok slots => trivial
  | error failure =>
    rw [hresult] at hchange
    exact hchange

/-- A request yields any value, or it was cancelled. -/
theorem ask {answer : σ → Option α × σ} {exchange : Option α → Exchange}
    (hvalues : ∀ value, P value) (hcancelled : E (Failure.because .cancelled)) :
    Yields P E (Evaluation.ask answer exchange) := by
  intro before
  rw [ask_apply]
  cases (answer before.user).1 with
  | none => exact hcancelled
  | some value => exact hvalues value

end Yields

end MatrixCalc.Evaluation

namespace MatrixCalc.Runs

/-- The runs are divided by the last one at the end. -/
theorem divideAll_cons (previous current : Value) (earlier : List Value) :
    (Runs.mk (previous :: earlier) current).divideAll =
      (Runs.mk earlier previous).divideAll >>= fun quotient => quotient.divide current := by
  obtain ⟨first, divisors, hreverse⟩ := List.exists_cons_of_ne_nil
    (List.reverse_ne_nil_iff.2 (List.cons_ne_nil previous earlier))
  simp only [divideAll, List.reverse_cons (a := current), hreverse, List.cons_append,
    List.foldlM_append, List.foldlM_cons, List.foldlM_nil, bind_pure]

end MatrixCalc.Runs
