import MatrixCalc.Report
import Mathlib.Data.List.Forall2

/-!
# Results that may be failures

`Meets P E result` says that a result is a value with one property or a failure with another.
`Agree R left right` says that two results are values that are related, or the same failure.
-/

namespace MatrixCalc

variable {α β γ δ : Type}

/-- Two results agree up to a relation on values: both are values that are related, or both are
the same failure. -/
inductive Agree (R : α → β → Prop) : Except Failure α → Except Failure β → Prop
  | ok {left : α} {right : β} (h : R left right) : Agree R (.ok left) (.ok right)
  | error (failure : Failure) : Agree R (.error failure) (.error failure)

namespace Agree

variable {R : α → β → Prop} {S : γ → δ → Prop} {left : Except Failure α} {right : Except Failure β}

/-- Two steps in a row agree if each does. -/
theorem bind {next : α → Except Failure γ} {next' : β → Except Failure δ} (h : Agree R left right)
    (hnext : ∀ a b, R a b → Agree S (next a) (next' b)) :
    Agree S (left >>= next) (right >>= next') := by
  cases h with
  | ok hvalues => exact hnext _ _ hvalues
  | error failure => exact .error failure

/-- Results that agree still do when their values are mapped to related ones. -/
theorem map {f : α → γ} {g : β → δ} (h : Agree R left right)
    (hvalues : ∀ a b, R a b → S (f a) (g b)) : Agree S (left.map f) (right.map g) := by
  cases h with
  | ok hab => exact .ok (hvalues _ _ hab)
  | error failure => exact .error failure

/-- Results whose values are related are so by any weaker relation. -/
theorem mono {R' : α → β → Prop} (h : Agree R left right) (himp : ∀ a b, R a b → R' a b) :
    Agree R' left right := by
  cases h with
  | ok hvalues => exact .ok (himp _ _ hvalues)
  | error failure => exact .error failure

/-- A result agrees with itself up to equality. -/
theorem refl (result : Except Failure α) : Agree (· = ·) result result := by
  cases result with
  | ok value => exact .ok rfl
  | error failure => exact .error failure

/-- After one and the same step only the next ones have to agree. -/
theorem bind_same {next : α → Except Failure γ} {next' : α → Except Failure δ}
    (result : Except Failure α) (hnext : ∀ a, Agree S (next a) (next' a)) :
    Agree S (result >>= next) (result >>= next') := by
  refine (refl result).bind fun a b hab => ?_
  subst hab
  exact hnext a

/-- One and the same result, mapped to related values. -/
theorem map_same {f : α → γ} {g : α → δ} (result : Except Failure α)
    (hvalues : ∀ a, S (f a) (g a)) : Agree S (result.map f) (result.map g) := by
  refine (refl result).map fun a b hab => ?_
  subst hab
  exact hvalues a

end Agree

/-- A result is a value with one property, or a failure with another. -/
def Meets (P : α → Prop) (E : Failure → Prop) : Except Failure α → Prop
  | .ok value => P value
  | .error failure => E failure

namespace Meets

variable {P P' : α → Prop} {Q : β → Prop} {E E' : Failure → Prop} {result : Except Failure α}

/-- Weaker properties hold as well. -/
theorem mono (h : Meets P E result) (hvalues : ∀ value, P value → P' value)
    (hfailures : ∀ failure, E failure → E' failure) : Meets P' E' result := by
  cases result with
  | ok value => exact hvalues value h
  | error failure => exact hfailures failure h

/-- Two steps in a row: values of the second, failures of both. -/
theorem bind {next : α → Except Failure β} (h : Meets P E result)
    (hnext : ∀ value, P value → Meets Q E (next value)) : Meets Q E (result >>= next) := by
  cases result with
  | ok value => exact hnext value h
  | error failure => exact h

/-- A property of the values, mapped to a property of their images. -/
theorem map {f : α → β} (h : Meets P E result) (hvalues : ∀ value, P value → Q (f value)) :
    Meets Q E (result.map f) := by
  cases result with
  | ok value => exact hvalues value h
  | error failure => exact h

/-- Items are read one after the other, or one of them cannot be read. -/
theorem mapM (read : α → Except Failure β) (items : List α) :
    Meets (List.Forall₂ (fun item value => read item = .ok value) items)
      (fun failure => ∃ item ∈ items, read item = .error failure) (items.mapM read) := by
  induction items with
  | nil => exact .nil
  | cons first rest ih =>
    rw [List.mapM_cons]
    cases hfirst : read first with
    | error failure => exact ⟨first, List.mem_cons_self, hfirst⟩
    | ok value =>
      show Meets _ _ (rest.mapM read >>= fun values => pure (value :: values))
      refine bind (ih.mono (fun _ hvalues => hvalues) fun failure hunread => ?_)
        fun values hvalues => .cons hfirst hvalues
      obtain ⟨item, hitem, hread⟩ := hunread
      exact ⟨item, List.mem_cons_of_mem first hitem, hread⟩

end Meets

end MatrixCalc
