import MatrixCalc.Proofs.Evaluation.Keeps
import MatrixCalc.Proofs.Evaluation.Line
import MatrixCalc.Proofs.SlotName
import MatrixCalc.Proofs.Syntax.RoundTrip
import Mathlib.Logic.Function.Basic

/-!
# What one line changes in the slots

`Expr.evaluate_store_effect`: the requests of a line are answered by the definer; a line that fails
has overwritten the slots by the answers to its named requests and by nothing else; a line that
succeeds has then overwritten its target, if it has one, and last the slot of the last result.
-/

namespace MatrixCalc

variable {σ α : Type}

/-! ## Overwriting slots -/

/-- A value as a slot holds it: scalars in lowest terms. -/
def Value.stored : Value → Value
  | .scalar value => .scalar value.reduce
  | .matrix value => .matrix value

/-- The slot of the last result of a kind. -/
def Slot.last : Kind → Slot
  | .matrix => .lastMatrix
  | .scalar => .lastScalar

namespace Slots

/-- Contents with some slots overwritten, one after the other. -/
def overwrite (contents : Slot → Value) (writes : List (Slot × Value)) : Slot → Value :=
  writes.foldl (fun contents write => Function.update contents write.1 write.2.stored) contents

/-- The slots after some writes: their contents are overwritten, and nothing else changes. -/
structure Overwritten (before : Slots) (writes : List (Slot × Value)) (after : Slots) : Prop where
  rows : after.defaultRows = before.defaultRows
  cols : after.defaultCols = before.defaultCols
  contents : after.get = overwrite before.get writes

variable {before middle after : Slots}

/-- Without a write nothing changes. -/
theorem Overwritten.nil (slots : Slots) : Overwritten slots [] slots :=
  ⟨rfl, rfl, rfl⟩

/-- Writes after writes are all of them in a row. -/
theorem Overwritten.append {writes writes' : List (Slot × Value)}
    (h : Overwritten before writes middle) (h' : Overwritten middle writes' after) :
    Overwritten before (writes ++ writes') after := by
  refine ⟨h'.rows.trans h.rows, h'.cols.trans h.cols, ?_⟩
  rw [h'.contents, h.contents, overwrite, overwrite, overwrite, List.foldl_append]

/-- Storing a matrix overwrites its slot. -/
theorem overwritten_setMatrix (slots : Slots) (letter : Letter) (value : RatMatrix) :
    Overwritten slots [(.matrix letter, .matrix value)] (slots.setMatrix letter value) := by
  refine ⟨rfl, rfl, funext fun slot => ?_⟩
  rw [get_setMatrix]
  exact (Function.update_apply slots.get _ _ slot).symm

/-- Storing a scalar overwrites its slot. -/
theorem overwritten_setScalar (slots : Slots) (letter : Letter) (value : Fraction) :
    Overwritten slots [(.scalar letter, .scalar value)] (slots.setScalar letter value) := by
  refine ⟨rfl, rfl, funext fun slot => ?_⟩
  rw [get_setScalar]
  exact (Function.update_apply slots.get _ _ slot).symm

/-- A value can be stored in every slot of its kind. -/
theorem setNamed_name (slots : Slots) {slot : Slot} {value : Value} (h : value.kind = slot.kind) :
    ∃ after, slots.setNamed slot.name value = .ok after ∧
      Overwritten slots [(slot, value)] after := by
  cases value with
  | matrix value =>
    cases slot with
    | matrix letter =>
      refine ⟨slots.setMatrix letter value, ?_, overwritten_setMatrix slots letter value⟩
      rw [setNamed, Slot.findMatrix_name]
      rfl
    | scalar letter => cases h
  | scalar value =>
    cases slot with
    | matrix letter => cases h
    | scalar letter =>
      refine ⟨slots.setScalar letter value, ?_, overwritten_setScalar slots letter value⟩
      rw [setNamed, Slot.findScalar_name]
      rfl

/-- Storing the last result overwrites the slot of its kind. -/
theorem overwritten_setLast (slots : Slots) (value : Value) :
    Overwritten slots [(Slot.last value.kind, value)] (slots.setLast value) := by
  cases value with
  | matrix value => exact overwritten_setMatrix slots 25 value
  | scalar value => exact overwritten_setScalar slots 25 value

end Slots

/-! ## Definitions -/

/-- The name and the value that an exchange defines, if a named value was asked for and given. -/
def Exchange.definition? : Exchange → Option (String × Value)
  | matrix name (some value) => some (name, .matrix value)
  | scalar name (some value) => some (name, .scalar value)
  | matrix _ none | scalar _ none | anonymous _ => none

/-- The writes that stem from some exchanges: each value that was defined is written to the slot
with its name, in the order of the exchanges. -/
def DefinedBy (exchanges : List Exchange) (writes : List (Slot × Value)) : Prop :=
  exchanges.filterMap Exchange.definition? = writes.map fun write => (write.1.name, write.2)

/-- Between two states some exchanges took place, and the slots were overwritten by what these
defined. -/
def DefinesOnly (before after : Progress σ) : Prop :=
  ∃ asked writes, after.exchanges = before.exchanges ++ asked ∧ DefinedBy asked writes ∧
    Slots.Overwritten before.slots writes after.slots

instance : Std.Refl (DefinesOnly (σ := σ)) where
  refl _ := ⟨[], [], (List.append_nil _).symm, rfl, .nil _⟩

instance : IsTrans (Progress σ) DefinesOnly where
  trans := by
    rintro before middle after ⟨asked, writes, hasked, hwrites, hslots⟩
      ⟨asked', writes', hasked', hwrites', hslots'⟩
    refine ⟨asked ++ asked', writes ++ writes', ?_, ?_, hslots.append hslots'⟩
    · rw [hasked', hasked, List.append_assoc]
    · rw [DefinedBy, List.filterMap_append, hwrites, hwrites', List.map_append]

open Evaluation (Keeps Answered asked bind_apply ask_apply write_eq_ok final succeeds
  exists_of_succeeds)

/-- Asks for a value, stores it under a name, and goes on with a result. -/
def Evaluation.define (name : Except Failure String) (value : α → Value)
    (answer : σ → Option α × σ) (exchange : Option α → Exchange) (result : α → Value) :
    Evaluation σ Value := do
  let given ← ask answer exchange
  write fun slots => name >>= fun name => slots.setNamed name (value given)
  pure (result given)

section Define

variable {slot : Slot} {name : Except Failure String} {value : α → Value}

/-- If the user cancels, nothing is stored. -/
theorem Evaluation.define_cases (answer : σ → Option α × σ) (exchange : Option α → Exchange)
    (result : α → Value) (hname : name = .ok slot.name)
    (hkind : ∀ given, (value given).kind = slot.kind) (before : Progress σ) :
    ((answer before.user).1 = none ∧
      define name value answer exchange result before =
        .error (Failure.because .cancelled) (asked before answer exchange)) ∨
    ∃ given slots, (answer before.user).1 = some given ∧
      Slots.Overwritten before.slots [(slot, value given)] slots ∧
      define name value answer exchange result before =
        .ok (result given) { asked before answer exchange with slots } := by
  subst hname
  cases hanswer : (answer before.user).1 with
  | none => exact .inl ⟨rfl, by rw [define, bind_apply, ask_apply, hanswer]⟩
  | some given =>
    obtain ⟨slots, hset, hslots⟩ := before.slots.setNamed_name (hkind given)
    have hwrite : write (fun slots => Except.ok slot.name >>= fun name =>
        slots.setNamed name (value given)) (asked before answer exchange) =
          .ok () { asked before answer exchange with slots } :=
      write_eq_ok hset
    refine .inr ⟨given, slots, rfl, hslots, ?_⟩
    rw [define, bind_apply, ask_apply, hanswer]
    show ((_ >>= _ : Evaluation σ Value) _) = _
    rw [bind_apply, hwrite]
    rfl

/-- A definition overwrites its slot by what was answered, if anything was. -/
theorem Evaluation.define_keeps {answer : σ → Option α × σ} {exchange : Option α → Exchange}
    (result : α → Value) (hname : name = .ok slot.name)
    (hkind : ∀ given, (value given).kind = slot.kind)
    (hnone : (exchange none).definition? = none)
    (hsome : ∀ given, (exchange (some given)).definition? = some (slot.name, value given)) :
    Keeps DefinesOnly (define name value answer exchange result) := by
  intro before
  obtain ⟨hanswer, hrun⟩ | ⟨given, slots, hanswer, hslots, hrun⟩ :=
    define_cases answer exchange result hname hkind before
  · rw [hrun]
    exact ⟨[exchange none], [], by simp [final, asked, hanswer], by simp [DefinedBy, hnone],
      .nil _⟩
  · rw [hrun]
    exact ⟨[exchange (some given)], [(slot, value given)], by simp [final, asked, hanswer],
      by simp [DefinedBy, hsome], hslots⟩

end Define

namespace VarRef.WellFormed

variable {ref : VarRef}

/-- `$A` asks for the value of a matrix variable and stores it there. -/
theorem exists_defineMatrix (hwf : ref.WellFormed) (hkind : ref.kind = .defineMatrix) :
    ∃ letter, ref.name = some (Slot.matrix letter).name ∧ ∀ {σ : Type} (definer : Definer σ),
      ref.eval definer = Evaluation.define (.ok (Slot.matrix letter).name) .matrix
        (definer.matrix (Slot.matrix letter).name) (.matrix (Slot.matrix letter).name) .matrix := by
  obtain ⟨kind, name⟩ := ref
  cases hkind
  obtain ⟨char, rfl, hclass⟩ := hwf
  obtain ⟨letter, hname⟩ := Slot.exists_matrix_of_isUpper hclass
  rw [← hname]
  exact ⟨letter, rfl, fun _ => rfl⟩

/-- `$a` asks for the value of a scalar variable and stores it there. -/
theorem exists_defineScalar (hwf : ref.WellFormed) (hkind : ref.kind = .defineScalar) :
    ∃ letter, ref.name = some (Slot.scalar letter).name ∧ ∀ {σ : Type} (definer : Definer σ),
      ref.eval definer = Evaluation.define (.ok (Slot.scalar letter).name) .scalar
        (definer.scalar (Slot.scalar letter).name) (.scalar (Slot.scalar letter).name)
        fun value => .scalar value.reduce := by
  obtain ⟨kind, name⟩ := ref
  cases hkind
  obtain ⟨char, rfl, hclass⟩ := hwf
  obtain ⟨letter, hname⟩ := Slot.exists_scalar_of_isLower hclass
  rw [← hname]
  exact ⟨letter, rfl, fun _ => rfl⟩

/-- Evaluating a well-formed reference defines the variable that is asked for, if one is. -/
theorem eval_keeps (hwf : ref.WellFormed) (definer : Definer σ) :
    Keeps DefinesOnly (ref.eval definer) := by
  cases hkind : ref.kind with
  | matrix | scalar =>
    unfold VarRef.eval
    rw [hkind]
    exact (Keeps.read _).bind fun value => .pure _
  | defineMatrix =>
    obtain ⟨letter, -, heval⟩ := hwf.exists_defineMatrix hkind
    rw [heval]
    exact Evaluation.define_keeps _ rfl (fun _ => rfl) rfl fun _ => rfl
  | defineScalar =>
    obtain ⟨letter, -, heval⟩ := hwf.exists_defineScalar hkind
    rw [heval]
    exact Evaluation.define_keeps _ rfl (fun _ => rfl) rfl fun _ => rfl
  | defineAnonymous =>
    unfold VarRef.eval
    rw [hkind]
    refine Keeps.bind (fun before => ?_) fun value => .pure _
    rw [Evaluation.final_ask]
    exact ⟨[.anonymous (definer.anonymous before.user).1], [], rfl, rfl, .nil _⟩

end VarRef.WellFormed

/-! ## Lines -/

namespace Expr

/-- The target of a well-formed line is a variable. -/
theorem WellFormed.exists_named {expr : Expr} (hwf : expr.WellFormed) :
    ∃ named : Option Slot, expr.target = named.map Slot.ref := by
  obtain ⟨sum, _ | ref⟩ := expr
  · exact ⟨none, rfl⟩
  · obtain ⟨hdefines, href⟩ := hwf.target ref rfl
    obtain ⟨slot, rfl⟩ := href.exists_ref hdefines
    exact ⟨some slot, rfl⟩

variable {sum : Sum}

/-- A line fails as its sum does. -/
theorem evaluate_of_eval_error {definer : Definer σ} {before middle : Progress σ}
    {failure : Failure} (h : sum.eval definer before = .error failure middle)
    (named : Option Slot) :
    (mk sum (named.map Slot.ref)).evaluate definer before = .error failure middle := by
  cases named with
  | none => rw [Option.map_none, evaluate_none, h]
  | some slot =>
    rw [Option.map_some, evaluate_some (targetName_eq slot.ref_defines slot.ref_name), h]

/-- What a line does with the value of its sum, in any state: the target refuses the value before
anything is written, or the value is written to the target, if there is one, and then to the slot
of the last result of its kind. -/
theorem evaluate_value_cases (sum : Sum) (named : Option Slot) (value : Value) :
    (∃ slot failure, named = some slot ∧ checkTarget slot.ref value = .error failure ∧
      ∀ {σ : Type} {definer : Definer σ} {before middle : Progress σ},
        sum.eval definer before = .ok value middle →
          (mk sum (named.map Slot.ref)).evaluate definer before = .error failure middle) ∨
    ∀ {σ : Type} {definer : Definer σ} {before middle : Progress σ},
      sum.eval definer before = .ok value middle →
        ∃ slots, Slots.Overwritten middle.slots ((named.toList.map fun slot => (slot, value)) ++
            [(Slot.last value.kind, value)]) slots ∧
          (mk sum (named.map Slot.ref)).evaluate definer before =
            .ok ⟨value, named.map Slot.name⟩ { middle with slots } := by
  cases named with
  | none =>
    refine .inr fun {σ definer before middle} h => ?_
    refine ⟨_, middle.slots.overwritten_setLast value, ?_⟩
    rw [Option.map_none, evaluate_none, h]
    rfl
  | some slot =>
    have hname := targetName_eq slot.ref_defines slot.ref_name
    cases hcheck : checkTarget slot.ref value with
    | error failure =>
      refine .inl ⟨slot, failure, rfl, hcheck, fun {σ definer before middle} h => ?_⟩
      rw [Option.map_some, evaluate_some hname, h]
      dsimp only
      rw [hcheck]
      rfl
    | ok checked =>
      have hkind := ((checkTarget_eq_ok_iff slot.ref_defines).1 hcheck).trans slot.ref_valueKind
      refine .inr fun {σ definer before middle} h => ?_
      obtain ⟨slots, hset, hslots⟩ := middle.slots.setNamed_name hkind
      have hstore : (checkTarget slot.ref value >>= fun _ =>
          middle.slots.setNamed slot.name value) = .ok slots := by
        rw [hcheck]
        exact hset
      refine ⟨_, hslots.append (slots.overwritten_setLast value), ?_⟩
      rw [Option.map_some, evaluate_some hname, h]
      simp only [hstore]
      rfl

end Expr

/-- A line that was stored as a result: after the definitions, the value is written to the target,
if there is one, and then to the slot of the last result of its kind. -/
def StoresResult (before : Progress σ) (outcome : Outcome) (target : Option VarRef)
    (after : Progress σ) : Prop :=
  ∃ asked writes, ∃ named : Option Slot,
    after.exchanges = before.exchanges ++ asked ∧ DefinedBy asked writes ∧
      target.bind VarRef.name = named.map Slot.name ∧ outcome.target = named.map Slot.name ∧
      Slots.Overwritten before.slots
        (writes ++ (named.toList.map fun slot => (slot, outcome.value)) ++
          [(Slot.last outcome.value.kind, outcome.value)]) after.slots

/-- What a well-formed line writes, whether it succeeds or fails. -/
theorem Expr.WellFormed.evaluate_store {expr : Expr} (hwf : expr.WellFormed)
    (definer : Definer σ) (before : Progress σ) :
    match expr.evaluate definer before with
    | .ok outcome after => StoresResult before outcome expr.target after
    | .error _ after => DefinesOnly before after := by
  obtain ⟨sum, target⟩ := expr
  obtain ⟨named, rfl⟩ : ∃ named : Option Slot, target = named.map Slot.ref := hwf.exists_named
  -- up to the end of the sum, whether it has a value or fails, there are definitions only
  have heval := sum.eval_keeps (T := DefinesOnly)
    (fun ref href => (sum.wellFormed_of_mem_refs hwf.sum ref href).eval_keeps definer) before
  cases hresult : sum.eval definer before with
  | error failure middle =>
    rw [evaluate_of_eval_error hresult]
    rw [hresult] at heval
    exact heval
  | ok value middle =>
    rw [hresult] at heval
    obtain ⟨-, failure, -, -, hrun⟩ | hrun := evaluate_value_cases sum named value
    · rw [hrun hresult]
      exact heval
    · obtain ⟨slots, hslots, hrun⟩ := hrun hresult
      obtain ⟨asked, writes, hasked, hwrites, hdefined⟩ := heval
      rw [hrun]
      refine ⟨asked, writes, named, hasked, hwrites, ?_, rfl, ?_⟩
      · cases named <;> rfl
      · rw [List.append_assoc]
        exact hdefined.append hslots

/-- What a parsed line writes. The exchanges that it adds are the answers of the definer to what it
was asked. If the line fails, the slots are overwritten by the answers to its named requests, in
their order, and by nothing else. If it succeeds, its value is written after that to its target, if
it has one, and last to the slot of the last result of its kind. -/
theorem Expr.evaluate_store_effect {source : String} {expr : Expr}
    (hparse : Expr.parse source = .ok expr) (definer : Definer σ) (before : Progress σ) :
    Answered definer before (final (expr.evaluate definer before)) ∧
      match expr.evaluate definer before with
      | .ok outcome after => StoresResult before outcome expr.target after
      | .error _ after => DefinesOnly before after :=
  ⟨expr.evaluate_answered definer before,
    (Expr.wellFormed_of_parse hparse).evaluate_store definer before⟩

/-- A line that asks for a scalar and assigns half of it. The answer 6/4 is stored as 3/2, and its
half is both in the target and the last result. -/
theorem Expr.evaluate_store_effect_halving :
    let definer : Definer Unit := ⟨fun _ user => (none, user),
      fun _ user => (some ⟨6, 4, by decide⟩, user), fun user => (none, user)⟩
    let before : Progress Unit := ⟨.fresh 2 2, (), []⟩
    ∃ expr outcome after, Expr.parse "$a / 2 -> b" = .ok expr ∧
      expr.evaluate definer before = .ok outcome after ∧ Answered definer before after ∧
      StoresResult before outcome expr.target after ∧
      after.slots.getScalarNamed "a" = .ok ⟨3, 2, by decide⟩ ∧
      after.slots.getScalarNamed "b" = .ok ⟨3, 4, by decide⟩ ∧
      after.slots.getScalarNamed "z" = .ok ⟨3, 4, by decide⟩ := by
  intro definer before
  let tree := Expr.mk (.term (.join (.factor (.mk false (.variable ⟨.defineScalar, some "a"⟩)))
    .div (.mk false (.number 2)))) (some ⟨.scalar, some "b"⟩)
  have hwf : tree.WellFormed := by
    have hnumber : Numeral.fits 2 = true := by decide +kernel
    refine ⟨⟨⟨'a', rfl, rfl⟩, hnumber⟩, by decide, ?_⟩
    rintro _ ⟨⟩
    exact ⟨rfl, 'b', rfl, rfl⟩
  have hparse : Expr.parse "$a / 2 -> b" = .ok tree := by
    have htext : tree.text = "$a / 2 -> b" := by decide +kernel
    rw [← htext]
    exact hwf.parse_text
  obtain ⟨hanswered, hstore⟩ := Expr.evaluate_store_effect hparse definer before
  have hsucceeds : succeeds (tree.evaluate definer before) = true := by decide +kernel
  have hslots : let slots := (final (tree.evaluate definer before)).slots
      slots.getScalarNamed "a" = .ok ⟨3, 2, by decide⟩ ∧
        slots.getScalarNamed "b" = .ok ⟨3, 4, by decide⟩ ∧
        slots.getScalarNamed "z" = .ok ⟨3, 4, by decide⟩ := by decide +kernel
  obtain ⟨outcome, after, hrun⟩ := exists_of_succeeds hsucceeds
  rw [hrun] at hanswered hstore hslots
  exact ⟨tree, outcome, after, hparse, hrun, hanswered, hstore, hslots⟩

end MatrixCalc
