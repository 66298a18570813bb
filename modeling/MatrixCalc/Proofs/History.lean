import MatrixCalc.Value
import Mathlib.Data.List.Induction

/-!
# Histories of values

A history is made step by step from inputs, and each step comes to an `Event`. `Event.latest` looks
back through a history for the most recent value of some sort. What the first state has and each
step keeps holds after every history (`Event.record_induction`).
-/

namespace MatrixCalc

/-- What a step of a history comes to. -/
inductive Event where
  /-- A line was evaluated and has this value. -/
  | computed (value : Value)
  /-- All variables were set back to their defaults. -/
  | reset
  /-- Neither, as for a line that fails. -/
  | other
  deriving DecidableEq

namespace Event

variable {α τ ι : Type}

/-- The value that was computed. -/
def value? : Event → Option Value
  | computed value => some value
  | reset | other => none

/-- The most recent value for which `pick` has an answer, looking back no further than to the last
reset. -/
def latest (pick : Value → Option α) (events : List Event) : Option α :=
  (events.reverse.takeWhile (· ≠ .reset)).findSome? fun event => event.value?.bind pick

variable (pick : Value → Option α) (events : List Event)

/-- Before anything happens there is no latest value. -/
@[simp] theorem latest_nil : latest pick [] = none :=
  rfl

/-- A value that was computed is the latest, if it is one of those looked for. -/
@[simp] theorem latest_append_computed (value : Value) :
    latest pick (events ++ [.computed value]) = (pick value).or (latest pick events) := by
  have htake : (events ++ [computed value]).reverse.takeWhile (fun event => event ≠ reset) =
      computed value :: events.reverse.takeWhile fun event => event ≠ reset := by
    simp
  rw [latest, htake, List.findSome?_cons]
  show (match pick value with | some found => some found | none => latest pick events) = _
  cases pick value <;> rfl

/-- A reset forgets all values. -/
@[simp] theorem latest_append_reset : latest pick (events ++ [.reset]) = none := by
  simp [latest]

/-- Nothing else changes the latest value. -/
@[simp] theorem latest_append_other :
    latest pick (events ++ [.other]) = latest pick events := by
  simp [latest, value?]

/-- The most recent value, seen in another way. -/
theorem latest_map {β : Type} (f : α → β) :
    latest (fun value => (pick value).map f) events = (latest pick events).map f := by
  rw [latest, latest, List.map_findSome?]
  congr
  funext event
  cases event <;> rfl

variable {step : τ → ι → τ × Event} {start : τ}

/-- The state after some inputs, and what each of them came to. -/
def record (step : τ → ι → τ × Event) (start : τ) (inputs : List ι) : τ × List Event :=
  inputs.foldl (fun done input => ((step done.1 input).1, done.2 ++ [(step done.1 input).2]))
    (start, [])

/-- One more input is a step from where the inputs before it have led. -/
theorem record_append_singleton (inputs : List ι) (input : ι) :
    record step start (inputs ++ [input]) =
      ((step (record step start inputs).1 input).1,
        (record step start inputs).2 ++ [(step (record step start inputs).1 input).2]) := by
  rw [record, List.foldl_append]
  rfl

/-- What the first state has, and each step keeps, holds after every history. -/
theorem record_induction {P : τ → List Event → Prop} (hstart : P start []) (inputs : List ι)
    (hstep : ∀ state events, ∀ input ∈ inputs, P state events →
      P (step state input).1 (events ++ [(step state input).2])) :
    P (record step start inputs).1 (record step start inputs).2 := by
  induction inputs using List.reverseRecOn with
  | nil => exact hstart
  | append_singleton inputs input ih =>
    rw [record_append_singleton]
    refine hstep _ _ input (by simp) (ih fun state events earlier hearlier => ?_)
    exact hstep state events earlier (List.mem_append_left _ hearlier)

end Event

end MatrixCalc
