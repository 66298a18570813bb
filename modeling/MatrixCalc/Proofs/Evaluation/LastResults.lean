import MatrixCalc.Proofs.Evaluation.LineEffect
import MatrixCalc.Proofs.History

/-!
# The last results

`Action.last_results`: after any lines and resets, `z` holds the most recent scalar that a line
came to since the last reset, in lowest terms, and `Z` the most recent matrix. Assignments, lines
that fail and results of the other kind do not matter for this, but a definition of the variable
itself does.

`HoldsLast` says this of one kind of value. Every action keeps it (`HoldsLast.perform_keeps`).
-/

namespace MatrixCalc

variable {σ : Type}

/-- A thing to do with the variables: to evaluate a line, or to set them all back. -/
inductive Action where
  | line (source : String)
  | reset
  deriving DecidableEq

/-- Does an action and tells what it came to. -/
def Action.perform (definer : Definer σ) (before : Progress σ) : Action → Progress σ × Event
  | line source =>
      match Expr.evaluateLine definer source before with
      | .ok outcome after => (after, .computed outcome.value)
      | .error _ after => (after, .other)
  | reset => ({ before with slots := before.slots.reset }, .reset)

namespace Value

/-- The value, if it is of a kind. -/
def ofKind? (kind : Kind) (value : Value) : Option Value :=
  if value.kind = kind then some value else none

/-- The value that every slot of a kind has at the start. -/
def initial (rows cols : Nat) : Kind → Value
  | .scalar => .scalar 0
  | .matrix => .matrix (.zeros rows cols)

/-- The fraction, if the value is a scalar. -/
def scalar? : Value → Option Fraction
  | scalar value => some value
  | matrix _ => none

/-- The matrix, if the value is one. -/
def matrix? : Value → Option RatMatrix
  | scalar _ => none
  | matrix value => some value

end Value

/-- A fresh slot holds the initial value of its kind. -/
theorem Slots.get_fresh (rows cols : Nat) (slot : Slot) :
    (fresh rows cols).get slot = (Value.initial rows cols slot.kind).stored := by
  cases slot with
  | matrix letter => exact congrArg Value.matrix (Vector.getElem_replicate _)
  | scalar letter =>
    have hzero : (0 : Fraction).reduce = 0 := by decide +kernel
    exact congrArg Value.scalar ((Vector.getElem_replicate _).trans hzero.symm)

open Event (latest)

/-- The slot of the last result of a kind holds the most recent value of this kind. -/
structure HoldsLast (rows cols : Nat) (kind : Kind) (progress : Progress σ) (events : List Event) :
    Prop where
  defaultRows : progress.slots.defaultRows = rows
  defaultCols : progress.slots.defaultCols = cols
  last : progress.slots.get (Slot.last kind) =
    ((latest (Value.ofKind? kind) events).getD (.initial rows cols kind)).stored

namespace HoldsLast

variable {rows cols : Nat} {kind : Kind} {progress : Progress σ} {events : List Event}

/-- Fresh slots hold the last results of an empty history. -/
theorem fresh (rows cols : Nat) (kind : Kind) (user : σ) (exchanges : List Exchange) :
    HoldsLast rows cols kind ⟨.fresh rows cols, user, exchanges⟩ [] := by
  refine ⟨rfl, rfl, ?_⟩
  rw [Slots.get_fresh, Slot.kind_last, Event.latest_nil, Option.getD_none]

/-- Every action keeps the last result of a kind in its place, unless it is a line in which this
place is defined. -/
theorem perform_keeps (h : HoldsLast rows cols kind progress events) (definer : Definer σ)
    (action : Action) (haction : ∀ source, action = .line source →
      ¬ Token.Occurs ("$" ++ (Slot.last kind).name) source) :
    HoldsLast rows cols kind (action.perform definer progress).1
      (events ++ [(action.perform definer progress).2]) := by
  cases action with
  | reset =>
    show HoldsLast rows cols kind ⟨.fresh _ _, progress.user, progress.exchanges⟩ _
    rw [h.defaultRows, h.defaultCols]
    refine ⟨rfl, rfl, ?_⟩
    rw [Slots.get_fresh, Slot.kind_last, Action.perform, Event.latest_append_reset,
      Option.getD_none]
  | line source =>
    have hsize := Expr.evaluateLine_keeps_size definer source progress
    have hlast := Expr.evaluateLine_last definer (haction source rfl) progress
    cases hresult : Expr.evaluateLine definer source progress with
    | error failure after =>
      rw [hresult] at hsize hlast
      rw [Action.perform, hresult]
      refine ⟨hsize.1.trans h.defaultRows, hsize.2.trans h.defaultCols, ?_⟩
      rw [Event.latest_append_other]
      exact hlast.trans h.last
    | ok outcome after =>
      rw [hresult] at hsize hlast
      rw [Action.perform, hresult]
      refine ⟨hsize.1.trans h.defaultRows, hsize.2.trans h.defaultCols, hlast.trans ?_⟩
      rw [Event.latest_append_computed, Value.ofKind?]
      split
      · rfl
      · exact h.last

/-- Actions keep the last result of a kind in its place if it is defined in none of the lines. -/
theorem record (kind : Kind) (definer : Definer σ) (rows cols : Nat) (user : σ)
    {actions : List Action} (hactions : ∀ source, .line source ∈ actions →
      ¬ Token.Occurs ("$" ++ (Slot.last kind).name) source) :
    HoldsLast rows cols kind
      (Event.record (Action.perform definer) ⟨.fresh rows cols, user, []⟩ actions).1
      (Event.record (Action.perform definer) ⟨.fresh rows cols, user, []⟩ actions).2 := by
  refine Event.record_induction (.fresh rows cols kind user []) actions
    fun progress events action haction h => h.perform_keeps definer action fun source hsource => ?_
  subst hsource
  exact hactions source haction

end HoldsLast

/-- After any lines and resets, from the default contents, `z` holds the most recent scalar result
since the last reset in lowest terms, or zero, provided that no line defines `z`. In the same way
`Z` holds the most recent matrix result, or the zero matrix of the default size. -/
theorem Action.last_results (definer : Definer σ) (rows cols : Nat) (user : σ)
    (actions : List Action) :
    let done := Event.record (Action.perform definer) ⟨.fresh rows cols, user, []⟩ actions
    ((∀ source, .line source ∈ actions → ¬ Token.Occurs "$z" source) →
      done.1.slots.get .lastScalar = .scalar ((latest Value.scalar? done.2).getD 0).reduce) ∧
    ((∀ source, .line source ∈ actions → ¬ Token.Occurs "$Z" source) →
      done.1.slots.get .lastMatrix =
        .matrix ((latest Value.matrix? done.2).getD (.zeros rows cols))) := by
  intro done
  constructor
  · intro hlines
    have hlast := (HoldsLast.record .scalar definer rows cols user hlines).last
    have hpick : Value.ofKind? .scalar = fun value => (Value.scalar? value).map .scalar := by
      funext value
      cases value <;> rfl
    rw [hpick, Event.latest_map] at hlast
    refine hlast.trans ?_
    cases latest Value.scalar? done.2 <;> rfl
  · intro hlines
    have hlast := (HoldsLast.record .matrix definer rows cols user hlines).last
    have hpick : Value.ofKind? .matrix = fun value => (Value.matrix? value).map .matrix := by
      funext value
      cases value <;> rfl
    rw [hpick, Event.latest_map] at hlast
    refine hlast.trans ?_
    cases latest Value.matrix? done.2 <;> rfl

/-- After a reset, a sum that is assigned, and lines that fail early or late. -/
theorem Action.last_results_session :
    let definer : Definer Unit := ⟨fun _ user => (none, user),
      fun _ user => (some ⟨6, 4, by decide⟩, user), fun user => (none, user)⟩
    let actions : List Action := [.line "identity(2)", .reset, .line "1/2 + 1/2 -> b",
      .line "1 / 0", .line "$c * $B", .line "4 -> A"]
    let done := Event.record (Action.perform definer) ⟨.fresh 0 0, (), []⟩ actions
    (∀ source, .line source ∈ actions → ¬ Token.Occurs "$z" source ∧ ¬ Token.Occurs "$Z" source) ∧
      done.1.slots.get .lastScalar = .scalar 1 ∧
      done.1.slots.get .lastMatrix = .matrix (.zeros 0 0) := by
  intro definer actions done
  have hlines : ∀ source, .line source ∈ actions →
      ¬ Token.Occurs "$z" source ∧ ¬ Token.Occurs "$Z" source := by
    intro source hsource
    simp only [actions, List.mem_cons, Action.line.injEq, reduceCtorEq, List.not_mem_nil, or_false,
      false_or] at hsource
    rcases hsource with rfl | rfl | rfl | rfl | rfl <;> decide +kernel
  obtain ⟨hscalar, hmatrix⟩ := Action.last_results definer 0 0 () actions
  have hscalars : latest Value.scalar? done.2 = some ⟨4, 4, by decide⟩ := by decide +kernel
  have hmatrices : latest Value.matrix? done.2 = none := by decide +kernel
  refine ⟨hlines, (hscalar fun source hsource => (hlines source hsource).1).trans ?_,
    (hmatrix fun source hsource => (hlines source hsource).2).trans ?_⟩
  · rw [hscalars]
    decide +kernel
  · rw [hmatrices]
    rfl

end MatrixCalc
