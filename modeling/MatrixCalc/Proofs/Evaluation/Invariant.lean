import MatrixCalc.Proofs.Evaluation.LastResults
import MatrixCalc.Proofs.Fraction.Arithmetic
import MatrixCalc.Proofs.RatMatrix.Rows
import MatrixCalc.Proofs.Value

/-!
# What holds after any run

After any calls on the variables, whether they succeed or fail, the matrix variables are `A` to `Z`
and the scalar variables `a` to `z`, scalars are stored in lowest terms, and all values that are
stored or were returned can be reduced and compared (`Call.run_sound`).

That denominators are positive and that a matrix has all its entries is part of the types of values
(`Value.sound`). That scalars are in lowest terms is not: sums are not reduced, and only the write
to a slot does it. Every call keeps this (`Call.perform_keeps`), since a tree writes to the slots
through the requests in it alone.
-/

namespace MatrixCalc

variable {σ α : Type}

/-! ## Values -/

namespace Fraction

/-- What is computed from the terms of a fraction is well defined and right: lowest terms divide by
no zero and make a fraction, wholeness divides by no zero and tells integers, and cross products
compare values. -/
structure Sound (a : Fraction) : Prop where
  den_pos : 0 < a.den
  divisor_ne_zero : gcd a.num a.den ≠ 0
  make_lowest : make (a.num / gcd a.num a.den) (a.den / gcd a.num a.den : Nat) = .ok a.reduce
  isWhole_iff : a.isWhole = true ↔ ∃ value : Int, a.toRat = value
  equiv_iff : ∀ b, a.Equiv b ↔ a.toRat = b.toRat

/-- Every fraction is sound, as its denominator is positive by its type. -/
theorem sound (a : Fraction) : a.Sound where
  den_pos := a.den_pos
  divisor_ne_zero := a.gcd_pos.ne'
  make_lowest := make_of_pos _ a.reduce.den_pos
  isWhole_iff := isWhole_iff_exists
  equiv_iff _ := Fraction.equiv_iff

end Fraction

namespace Value

/-- A scalar is sound, and so are the entries of a matrix, of which there is one for each row and
column, and by which matrices are compared. -/
def Sound : Value → Prop
  | scalar a => a.Sound
  | matrix m => m.toList.length = m.rows * m.cols ∧ (∀ entry ∈ m.toList, entry.Sound) ∧
      ∀ other, m.same other = true ↔ m.Equiv other

/-- Every value is sound, since its fractions are and a matrix has an entry for every place by its
type. -/
theorem sound (value : Value) : value.Sound := by
  cases value with
  | scalar a => exact a.sound
  | matrix m =>
    refine ⟨?_, fun entry _ => entry.sound, fun other => RatMatrix.same_iff⟩
    simp [RatMatrix.toList, Grid.toList]

end Value

/-! ## Slots -/

/-- A value that can stand in a slot: scalars are in lowest terms. -/
def Value.IsStored : Value → Prop
  | .scalar a => a.IsReduced
  | .matrix _ => True

/-- What is written to a slot is in lowest terms there. -/
theorem Value.isStored_stored (value : Value) : value.stored.IsStored := by
  cases value with
  | scalar a => exact a.isReduced_reduce
  | matrix m => trivial

namespace Slots

/-- All scalars are in lowest terms. -/
def AllStored (slots : Slots) : Prop :=
  ∀ slot, (slots.get slot).IsStored

/-- The default contents are in lowest terms. -/
theorem allStored_fresh (rows cols : Nat) : (fresh rows cols).AllStored := by
  intro slot
  rw [get_fresh]
  exact Value.isStored_stored _

/-- Whatever is written, scalars are stored in lowest terms. -/
theorem Overwritten.allStored {before after : Slots} {writes : List (Slot × Value)}
    (h : Overwritten before writes after) (hbefore : before.AllStored) : after.AllStored := by
  intro slot
  rw [h.contents]
  refine List.foldlRecOn (motive := fun contents : Slot → Value => (contents slot).IsStored) writes
    _ (hbefore slot) fun contents hcontents write _ => ?_
  rw [Function.update_apply]
  split
  · exact write.2.isStored_stored
  · exact hcontents

/-- Storing under a name overwrites a slot, if there is one with the name. -/
theorem setNamed_overwrites (slots : Slots) (name : String) (value : Value) :
    Meets (fun after => ∃ writes, Overwritten slots writes after) (fun _ => True)
      (slots.setNamed name value) := by
  unfold setNamed
  cases value with
  | matrix value =>
    cases Slot.findMatrix name with
    | error failure => trivial
    | ok letter => exact ⟨_, overwritten_setMatrix slots letter value⟩
  | scalar value =>
    cases Slot.findScalar name with
    | error failure => trivial
    | ok letter => exact ⟨_, overwritten_setScalar slots letter value⟩

variable {slots : Slots} {name : String}

/-- A matrix is found under a name exactly if a slot has this name and holds it. -/
theorem getMatrixNamed_eq_ok_iff {m : RatMatrix} : slots.getMatrixNamed name = .ok m ↔
    ∃ letter, (Slot.matrix letter).name = name ∧ slots.get (.matrix letter) = .matrix m := by
  unfold getMatrixNamed
  constructor
  · intro h
    cases hfind : Slot.findMatrix name with
    | error failure =>
      rw [hfind] at h
      cases h
    | ok letter =>
      rw [hfind] at h
      cases h
      exact ⟨letter, Slot.findMatrix_eq_ok_iff.1 hfind, rfl⟩
  · rintro ⟨letter, hname, hget⟩
    rw [Slot.findMatrix_eq_ok_iff.2 hname]
    exact congrArg Except.ok (Value.matrix.inj hget)

/-- A scalar is found under a name exactly if a slot has this name and holds it. -/
theorem getScalarNamed_eq_ok_iff {a : Fraction} : slots.getScalarNamed name = .ok a ↔
    ∃ letter, (Slot.scalar letter).name = name ∧ slots.get (.scalar letter) = .scalar a := by
  unfold getScalarNamed
  constructor
  · intro h
    cases hfind : Slot.findScalar name with
    | error failure =>
      rw [hfind] at h
      cases h
    | ok letter =>
      rw [hfind] at h
      cases h
      exact ⟨letter, Slot.findScalar_eq_ok_iff.1 hfind, rfl⟩
  · rintro ⟨letter, hname, hget⟩
    rw [Slot.findScalar_eq_ok_iff.2 hname]
    exact congrArg Except.ok (Value.scalar.inj hget)

/-- There are the matrices `A` to `Z` and the scalars `a` to `z`, and no other variables. Their
values are sound, and the scalars are in lowest terms. -/
structure Sound (slots : Slots) : Prop where
  matrix_names : ∀ name, (∃ m, slots.getMatrixNamed name = .ok m) ↔
    ∃ char : Char, 'A' ≤ char ∧ char ≤ 'Z' ∧ name = String.singleton char
  scalar_names : ∀ name, (∃ a, slots.getScalarNamed name = .ok a) ↔
    ∃ char : Char, 'a' ≤ char ∧ char ≤ 'z' ∧ name = String.singleton char
  matrices_sound : ∀ name m, slots.getMatrixNamed name = .ok m → (Value.matrix m).Sound
  scalars_sound : ∀ name a, slots.getScalarNamed name = .ok a →
    a.IsReduced ∧ (Value.scalar a).Sound

/-- Slots whose scalars are in lowest terms are sound. -/
theorem AllStored.sound (h : slots.AllStored) : slots.Sound where
  matrix_names name := by
    rw [← Slot.exists_matrix_name_iff]
    simp only [getMatrixNamed_eq_ok_iff]
    constructor
    · rintro ⟨m, letter, hname, -⟩
      exact ⟨letter, hname⟩
    · rintro ⟨letter, hname⟩
      exact ⟨_, letter, hname, rfl⟩
  scalar_names name := by
    rw [← Slot.exists_scalar_name_iff]
    simp only [getScalarNamed_eq_ok_iff]
    constructor
    · rintro ⟨a, letter, hname, -⟩
      exact ⟨letter, hname⟩
    · rintro ⟨letter, hname⟩
      exact ⟨_, letter, hname, rfl⟩
  matrices_sound _ m _ := (Value.matrix m).sound
  scalars_sound name a hget := by
    obtain ⟨letter, -, heq⟩ := getScalarNamed_eq_ok_iff.1 hget
    have hstored := h (.scalar letter)
    rw [heq] at hstored
    exact ⟨hstored, Value.sound _⟩

end Slots

/-! ## Evaluation -/

/-- Between two states some slots were overwritten. -/
def Overwrites (before after : Progress σ) : Prop :=
  ∃ writes, Slots.Overwritten before.slots writes after.slots

instance : Std.Refl (Overwrites (σ := σ)) where
  refl before := ⟨[], .nil before.slots⟩

instance : IsTrans (Progress σ) Overwrites where
  trans := by
    rintro before middle after ⟨writes, hwrites⟩ ⟨writes', hwrites'⟩
    exact ⟨writes ++ writes', hwrites.append hwrites'⟩

open Evaluation (Keeps final)

/-- Evaluating any line, well-formed or not, overwrites slots at most. -/
theorem Expr.evaluate_overwrites (expr : Expr) (definer : Definer σ) :
    Keeps Overwrites (expr.evaluate definer) :=
  expr.evaluate_keeps ⟨fun before _ _ _ => ⟨[], .nil before.slots⟩,
    fun before name value => before.slots.setNamed_overwrites name value,
    fun before value => ⟨_, before.slots.overwritten_setLast value⟩⟩

/-- Evaluating any text overwrites slots at most. -/
theorem Expr.evaluateLine_overwrites (definer : Definer σ) (source : String) :
    Keeps Overwrites (evaluateLine definer source) :=
  Keeps.bind (.ofExcept _) fun expr => expr.evaluate_overwrites definer

/-! ## Calls -/

/-- A call on the variables: to store a value, to set all variables back, or to evaluate a tree or
a line with a definer of its own. -/
inductive Call (σ : Type) where
  | set (name : String) (value : Value)
  | reset
  | evaluate (definer : Definer σ) (expr : Expr)
  | evaluateLine (definer : Definer σ) (source : String)

namespace Call

/-- The state after an evaluation, and what the evaluation came to. -/
def ended : EStateM.Result Failure (Progress σ) Outcome → Progress σ × Event
  | .ok outcome after => (after, .computed outcome.value)
  | .error _ after => (after, .other)

/-- Does a call and tells what it came to. Storing under a name that does not take the value
changes nothing. -/
def perform (before : Progress σ) : Call σ → Progress σ × Event
  | set name value =>
      match before.slots.setNamed name value with
      | .ok slots => ({ before with slots }, .other)
      | .error _ => (before, .other)
  | reset => ({ before with slots := before.slots.reset }, .reset)
  | evaluate definer expr => ended (expr.evaluate definer before)
  | evaluateLine definer source => ended (Expr.evaluateLine definer source before)

/-- A call that evaluates ends in the state in which the evaluation ends. -/
theorem ended_fst (result : EStateM.Result Failure (Progress σ) Outcome) :
    (ended result).1 = final result := by
  cases result <;> rfl

/-- Every call keeps scalars in lowest terms. -/
theorem perform_keeps {before : Progress σ} (h : before.slots.AllStored) (call : Call σ) :
    (call.perform before).1.slots.AllStored := by
  cases call with
  | set name value =>
    have hset := before.slots.setNamed_overwrites name value
    rw [perform]
    cases hresult : before.slots.setNamed name value with
    | error failure => exact h
    | ok slots =>
      rw [hresult] at hset
      obtain ⟨writes, hwrites⟩ := hset
      exact hwrites.allStored h
  | reset => exact Slots.allStored_fresh _ _
  | evaluate definer expr =>
    obtain ⟨writes, hwrites⟩ := expr.evaluate_overwrites definer before
    rw [perform, ended_fst]
    exact hwrites.allStored h
  | evaluateLine definer source =>
    obtain ⟨writes, hwrites⟩ := Expr.evaluateLine_overwrites definer source before
    rw [perform, ended_fst]
    exact hwrites.allStored h

/-- After any calls, starting from the default contents, the variables are the matrices `A` to `Z`
and the scalars `a` to `z`. Scalars are stored in lowest terms, matrices have one entry for each
row and column, all denominators are positive, also those of the values that were returned, and so
these values can be brought to lowest terms, tested for wholeness and compared. -/
theorem run_sound (rows cols : Nat) (user : σ) (calls : List (Call σ)) :
    let done := Event.record (fun before call => perform before call)
      ⟨.fresh rows cols, user, []⟩ calls
    done.1.slots.Sound ∧ ∀ value, .computed value ∈ done.2 → value.Sound := by
  intro done
  have hstored : done.1.slots.AllStored :=
    Event.record_induction (P := fun (progress : Progress σ) _ => progress.slots.AllStored)
      (Slots.allStored_fresh rows cols) calls fun progress _ call _ h => perform_keeps h call
  exact ⟨hstored.sound, fun value _ => value.sound⟩

end Call

end MatrixCalc
