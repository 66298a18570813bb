import MatrixCalc.Proofs.Evaluation.Congruence
import MatrixCalc.Proofs.Evaluation.LineEffect

/-!
# Slots that a line does not mention

`Expr.evaluate_noninterference`: what a line evaluates to, asks for and writes depends on the slots
alone that it reads. In two states in which these hold the same values, with users who answer
alike, it ends in the same way, and the slots that it neither defines nor assigns keep what they
held in each of the states.

Both runs are followed by `InStep`: up to any point they have made the same exchanges and written
the same values, so that a slot that held the same value in both still does (`InStep.get_eq`).
-/

namespace MatrixCalc

variable {σ τ : Type}

open Evaluation (Simulates asked define define_cases)

/-! ## Runs side by side -/

/-- Two definers whose states are related give the same answers. -/
abbrev Definer.Alike (definer : Definer σ) (definer' : Definer τ) (U : σ → τ → Prop) : Prop :=
  Related (· = ·) (· = ·) U definer definer'

/-- Between two states some exchanges were made and some values were written to slots. -/
structure Progress.Moved (before : Progress σ) (asked : List Exchange)
    (writes : List (Slot × Value)) (after : Progress σ) : Prop where
  exchanges : after.exchanges = before.exchanges ++ asked
  slots : Slots.Overwritten before.slots writes after.slots

namespace Progress.Moved

variable {before middle after : Progress σ} {asked asked' : List Exchange}
  {writes writes' : List (Slot × Value)}

/-- Where nothing happens no exchange and no write takes place. -/
theorem refl (before : Progress σ) : before.Moved [] [] before :=
  ⟨(List.append_nil _).symm, .nil _⟩

/-- Exchanges after exchanges, and writes after writes. -/
theorem trans (h : before.Moved asked writes middle) (h' : middle.Moved asked' writes' after) :
    before.Moved (asked ++ asked') (writes ++ writes') after := by
  refine ⟨?_, h.slots.append h'.slots⟩
  rw [h'.exchanges, h.exchanges, List.append_assoc]

/-- Writing without asking. -/
theorem store (h : before.Moved asked writes after) {slots : Slots}
    (hslots : Slots.Overwritten after.slots writes' slots) :
    before.Moved asked (writes ++ writes') { after with slots } :=
  ⟨h.exchanges, h.slots.append hslots⟩

end Progress.Moved

/-- Two runs that have made the same exchanges and written the same values, all of them answers to
requests for some of the slots. -/
structure InStep (U : σ → τ → Prop) (defined : Slot → Prop) (before : Progress σ)
    (before' : Progress τ) (after : Progress σ) (after' : Progress τ) : Prop where
  user : U after.user after'.user
  moved : ∃ asked writes, DefinedBy asked writes ∧ (∀ write ∈ writes, defined write.1) ∧
    before.Moved asked writes after ∧ before'.Moved asked writes after'

/-- The same writes change the contents of a slot alike. -/
theorem Slots.overwrite_congr {contents contents' : Slot → Value} {slot : Slot}
    (h : contents slot = contents' slot) (writes : List (Slot × Value)) :
    overwrite contents writes slot = overwrite contents' writes slot := by
  induction writes generalizing contents contents' with
  | nil => exact h
  | cons write rest ih =>
    refine ih ?_
    dsimp only
    rw [Function.update_apply, Function.update_apply, h]

variable {U : σ → τ → Prop} {defined : Slot → Prop} {before after : Progress σ}
  {before' after' : Progress τ}

namespace InStep

/-- At the start two runs are in step if their definers are. -/
theorem start (husers : U before.user before'.user) :
    InStep U defined before before' before before' :=
  ⟨husers, [], [], rfl, nofun, .refl before, .refl before'⟩

/-- A slot that held the same value in both runs still does. -/
theorem get_eq (h : InStep U defined before before' after after') {slot : Slot}
    (hslot : before.slots.get slot = before'.slots.get slot) :
    after.slots.get slot = after'.slots.get slot := by
  obtain ⟨asked, writes, -, -, hmoved, hmoved'⟩ := h.moved
  rw [hmoved.slots.contents, hmoved'.slots.contents, Slots.overwrite_congr hslot]

/-- The users were asked for the same, and what they answered, if it has a name, was stored. -/
theorem extend (h : InStep U defined before before' after after') {last : Progress σ}
    {last' : Progress τ} (husers : U last.user last'.user) (exchange : Exchange)
    (writes : List (Slot × Value)) (hwrites : DefinedBy [exchange] writes)
    (hdefined : ∀ write ∈ writes, defined write.1) (hmoved : after.Moved [exchange] writes last)
    (hmoved' : after'.Moved [exchange] writes last') :
    InStep U defined before before' last last' := by
  obtain ⟨asked, earlier, hearlier, hdefined', hbefore, hbefore'⟩ := h.moved
  refine ⟨husers, asked ++ [exchange], earlier ++ writes, ?_,
    List.forall_mem_append.2 ⟨hdefined', hdefined⟩, hbefore.trans hmoved, hbefore'.trans hmoved'⟩
  rw [DefinedBy, List.filterMap_append, hearlier, hwrites, List.map_append]

end InStep

/-! ## Variables -/

/-- Both users are asked for a value that is stored. -/
theorem Evaluation.define_inStep {α : Type} {slot : Slot} {name : Except Failure String}
    {value : α → Value} {answer : σ → Option α × σ} {answer' : τ → Option α × τ}
    {exchange : Option α → Exchange} (result : α → Value) (hname : name = .ok slot.name)
    (hkind : ∀ given, (value given).kind = slot.kind) (hslot : defined slot)
    (hnone : (exchange none).definition? = none)
    (hsome : ∀ given, (exchange (some given)).definition? = some (slot.name, value given))
    (hanswers : RelatedAnswers U (· = ·) answer answer') :
    Simulates (InStep U defined before before') (· = ·) (define name value answer exchange result)
      (define name value answer' exchange result) := by
  intro middle middle' hstates
  obtain ⟨hrelated, husers⟩ := hanswers _ _ hstates.user
  have hsame := eq_of_optionRel hrelated
  obtain ⟨hanswer, hrun⟩ | ⟨given, slots, hanswer, hslots, hrun⟩ :=
    define_cases answer exchange result hname hkind middle
  · obtain ⟨hanswer', hrun'⟩ | ⟨_, _, hanswer', -, -⟩ :=
      define_cases answer' exchange result hname hkind middle'
    · rw [hrun, hrun']
      refine .error _
        (hstates.extend husers (exchange none) [] ?_ nofun ⟨?_, .nil _⟩ ⟨?_, .nil _⟩)
      · simp [DefinedBy, hnone]
      · simp [asked, hanswer]
      · simp [asked, hanswer']
    · rw [← hsame, hanswer] at hanswer'
      cases hanswer'
  · obtain ⟨hanswer', -⟩ | ⟨given', slots', hanswer', hslots', hrun'⟩ :=
      define_cases answer' exchange result hname hkind middle'
    · rw [← hsame, hanswer] at hanswer'
      cases hanswer'
    · rw [← hsame, hanswer] at hanswer'
      cases hanswer'
      rw [hrun, hrun']
      refine .ok rfl (hstates.extend husers (exchange (some given)) [(slot, value given)] ?_
        (List.forall_mem_singleton.2 hslot) ⟨?_, hslots⟩ ⟨?_, hslots'⟩)
      · simp [DefinedBy, hsome]
      · simp [asked, hanswer]
      · simp [asked, ← hsame, hanswer]

/-- Both users are asked for a value that is not stored. -/
theorem Evaluation.ask_inStep {α : Type} {answer : σ → Option α × σ} {answer' : τ → Option α × τ}
    {exchange : Option α → Exchange} (hexchange : ∀ given, (exchange given).definition? = none)
    (hanswers : RelatedAnswers U (· = ·) answer answer') :
    Simulates (InStep U defined before before') (· = ·) (ask answer exchange)
      (ask answer' exchange) := by
  refine Simulates.ask fun middle middle' hstates => ?_
  obtain ⟨hrelated, husers⟩ := hanswers _ _ hstates.user
  refine ⟨hrelated, hstates.extend husers _ [] ?_ nofun ⟨rfl, .nil _⟩ ⟨?_, .nil _⟩⟩
  · simp [DefinedBy, hexchange]
  · rw [asked, eq_of_optionRel hrelated]

variable {definer : Definer σ} {definer' : Definer τ}

/-- The variable in a slot that held the same value in both runs, when it is read. -/
theorem Slot.ref_inStep {slot : Slot} (h : before.slots.get slot = before'.slots.get slot) :
    Simulates (InStep U defined before before') (· = ·) (slot.ref.eval definer)
      (slot.ref.eval definer') := by
  intro middle middle' hstates
  rw [slot.eval_ref, slot.eval_ref]
  exact .ok (hstates.get_eq h) hstates

/-- A reference keeps two runs in step that agree on the slot it reads. -/
theorem VarRef.WellFormed.eval_inStep {ref : VarRef} (hwf : ref.WellFormed)
    (hdefiners : definer.Alike definer' U)
    (hreads : ∀ slot, ref = slot.ref → before.slots.get slot = before'.slots.get slot)
    (hdefines : ref.defines = true → ∀ slot, ref.name = some slot.name → defined slot) :
    Simulates (InStep U defined before before') (· = ·) (ref.eval definer) (ref.eval definer') := by
  cases hkind : ref.kind with
  | matrix | scalar =>
    obtain ⟨slot, rfl⟩ := hwf.exists_ref (by rw [VarRef.defines, hkind])
    exact Slot.ref_inStep (hreads slot rfl)
  | defineMatrix =>
    obtain ⟨letter, hname, heval⟩ := hwf.exists_defineMatrix hkind
    have hslot := hdefines (by rw [VarRef.defines, hkind]) _ hname
    rw [heval, heval]
    exact Evaluation.define_inStep _ rfl (fun _ => rfl) hslot rfl (fun _ => rfl)
      (hdefiners.matrix _)
  | defineScalar =>
    obtain ⟨letter, hname, heval⟩ := hwf.exists_defineScalar hkind
    have hslot := hdefines (by rw [VarRef.defines, hkind]) _ hname
    rw [heval, heval]
    exact Evaluation.define_inStep _ rfl (fun _ => rfl) hslot rfl (fun _ => rfl)
      (hdefiners.scalar _)
  | defineAnonymous =>
    unfold VarRef.eval
    rw [hkind]
    refine (Evaluation.ask_inStep (fun _ => rfl) hdefiners.anonymous).bind fun m n hm => ?_
    exact .pure (congrArg Value.matrix hm)

/-! ## Lines -/

namespace Expr

/-- A variable is read in a line. -/
def Reads (expr : Expr) (slot : Slot) : Prop :=
  slot.ref ∈ expr.refs

/-- A variable is asked for in a line. -/
def Defines (expr : Expr) (slot : Slot) : Prop :=
  ∃ ref ∈ expr.refs, ref.defines = true ∧ ref.name = some slot.name

/-- A variable is the target of a line. -/
def Assigns (expr : Expr) (slot : Slot) : Prop :=
  expr.target.bind VarRef.name = some slot.name

/-- The writes of a line in their order: what it defines, and then its value, if it has one, in its
target, if there is one, and as the last result. -/
inductive Writes (expr : Expr) (asked : List Exchange) :
    Option Value → List (Slot × Value) → Prop
  | failed {writes : List (Slot × Value)} (hwrites : DefinedBy asked writes)
      (hdefined : ∀ write ∈ writes, expr.Defines write.1) : Writes expr asked none writes
  | stored {writes : List (Slot × Value)} {named : Option Slot} {value : Value}
      (hwrites : DefinedBy asked writes) (hdefined : ∀ write ∈ writes, expr.Defines write.1)
      (hnamed : expr.target.bind VarRef.name = named.map Slot.name) :
      Writes expr asked (some value) (writes ++ (named.toList.map fun slot => (slot, value)) ++
        [(Slot.last value.kind, value)])

/-- In two runs a line has made the same exchanges and the same writes. -/
def MovesAlike (expr : Expr) (value : Option Value) (before : Progress σ) (before' : Progress τ)
    (after : Progress σ) (after' : Progress τ) : Prop :=
  ∃ asked writes, expr.Writes asked value writes ∧ before.Moved asked writes after ∧
    before'.Moved asked writes after'

variable {expr : Expr}

/-- A line writes to the variables that it asks for, and if it has a value to its target and to the
slot of the last result of its kind. -/
theorem Writes.slot_cases {asked : List Exchange} {value : Option Value}
    {writes : List (Slot × Value)} (h : expr.Writes asked value writes) {write : Slot × Value}
    (hwrite : write ∈ writes) :
    expr.Defines write.1 ∨ ∃ result, value = some result ∧
      (expr.Assigns write.1 ∨ write.1 = Slot.last result.kind) := by
  cases h with
  | failed _ hdefined => exact .inl (hdefined write hwrite)
  | @stored defined named result _ hdefined hnamed =>
    rw [List.mem_append, List.mem_append, List.mem_map, List.mem_singleton] at hwrite
    rcases hwrite with (hfirst | ⟨slot, hslot, rfl⟩) | rfl
    · exact .inl (hdefined write hfirst)
    · rw [Option.mem_toList] at hslot
      rw [hslot] at hnamed
      exact .inr ⟨result, rfl, .inl hnamed⟩
    · exact .inr ⟨result, rfl, .inr rfl⟩

/-- The other variables keep what they held in each of the runs. -/
theorem MovesAlike.get_eq {value : Option Value} (h : expr.MovesAlike value before before' after
    after') {slot : Slot} (hdefines : ¬ expr.Defines slot)
    (hstored : ∀ result, value = some result →
      ¬ expr.Assigns slot ∧ slot ≠ Slot.last result.kind) :
    after.slots.get slot = before.slots.get slot ∧
      after'.slots.get slot = before'.slots.get slot := by
  obtain ⟨asked, writes, hwrites, hmoved, hmoved'⟩ := h
  have hne : ∀ write ∈ writes, write.1 ≠ slot := by
    rintro write hwrite rfl
    rcases hwrites.slot_cases hwrite with hdefined | ⟨result, hresult, hassigned | hlast⟩
    · exact hdefines hdefined
    · exact (hstored result hresult).1 hassigned
    · exact (hstored result hresult).2 hlast
  exact ⟨hmoved.slots.get_of_ne hne, hmoved'.slots.get_of_ne hne⟩

/-- A tree keeps two runs in step that agree on the slots it reads. -/
theorem WellFormedInside.eval_inStep (hwf : expr.WellFormedInside)
    (hdefiners : definer.Alike definer' U)
    (hreads : ∀ slot, expr.Reads slot → before.slots.get slot = before'.slots.get slot) :
    Simulates (InStep U expr.Defines before before') (· = ·) (expr.eval definer)
      (expr.eval definer') := by
  have hrefs : ∀ ref ∈ expr.refs, Simulates (InStep U expr.Defines before before') (· = ·)
      (ref.eval definer) ((Operand.variable ref).eval definer') :=
    fun ref href => (expr.wellFormed_of_mem_refs hwf ref href).eval_inStep hdefiners
      (fun slot hslot => hreads slot (by rwa [Reads, ← hslot]))
      fun hdefines slot hname => ⟨ref, href, hdefines, hname⟩
  have hsame := expr.substitute_simulates Value.isRespected_eq hrefs
  rwa [expr.substitute_variable] at hsame

variable {middle : Progress σ} {middle' : Progress τ}

/-- A line that fails in both runs has stored answers only. -/
theorem movesAlike_of_failed (h : InStep U expr.Defines before before' middle middle') :
    expr.MovesAlike none before before' middle middle' := by
  obtain ⟨asked, writes, hwrites, hdefined, hmoved, hmoved'⟩ := h.moved
  exact ⟨asked, writes, .failed hwrites hdefined, hmoved, hmoved'⟩

/-- Storing the value of a line that has been evaluated in both runs. -/
theorem movesAlike_of_stored (h : InStep U expr.Defines before before' middle middle')
    {named : Option Slot} {value : Value}
    (hnamed : expr.target.bind VarRef.name = named.map Slot.name) {slots slots' : Slots}
    (hslots : Slots.Overwritten middle.slots ((named.toList.map fun slot => (slot, value)) ++
        [(Slot.last value.kind, value)]) slots)
    (hslots' : Slots.Overwritten middle'.slots ((named.toList.map fun slot => (slot, value)) ++
        [(Slot.last value.kind, value)]) slots') :
    expr.MovesAlike (some value) before before' { middle with slots }
      { middle' with slots := slots' } := by
  obtain ⟨asked, writes, hwrites, hdefined, hmoved, hmoved'⟩ := h.moved
  refine ⟨asked, _, .stored hwrites hdefined hnamed, ?_, ?_⟩
  · rw [List.append_assoc]
    exact hmoved.store hslots
  · rw [List.append_assoc]
    exact hmoved'.store hslots'

/-- A well-formed line comes to the same in two states that agree on the slots it reads. -/
theorem WellFormed.evaluate_alike (hwf : expr.WellFormed) (hdefiners : definer.Alike definer' U)
    (husers : U before.user before'.user)
    (hreads : ∀ slot, expr.Reads slot → before.slots.get slot = before'.slots.get slot) :
    match expr.evaluate definer before, expr.evaluate definer' before' with
    | .ok outcome after, .ok outcome' after' =>
        outcome = outcome' ∧ U after.user after'.user ∧
          expr.MovesAlike (some outcome.value) before before' after after'
    | .error failure after, .error failure' after' =>
        failure = failure' ∧ U after.user after'.user ∧
          expr.MovesAlike none before before' after after'
    | _, _ => False := by
  obtain ⟨sum, target⟩ := expr
  obtain ⟨named, rfl⟩ : ∃ named : Option Slot, target = named.map Slot.ref := hwf.exists_named
  have hnamed : (named.map Slot.ref).bind VarRef.name = named.map Slot.name := by
    cases named <;> rfl
  have hinside : (Expr.mk sum none).WellFormedInside := ⟨rfl, hwf.sum⟩
  have hends : Evaluation.Parallel (InStep U (Expr.mk sum (named.map Slot.ref)).Defines before
      before') (· = ·) (sum.eval definer before) (sum.eval definer' before') :=
    hinside.eval_inStep hdefiners hreads before before' (.start husers)
  generalize hresult : sum.eval definer before = result at hends
  generalize hresult' : sum.eval definer' before' = result' at hends
  cases hends with
  | error failure hstates =>
    rw [evaluate_of_eval_error hresult, evaluate_of_eval_error hresult']
    exact ⟨rfl, hstates.user, movesAlike_of_failed hstates⟩
  | @ok value value' middle middle' hvalues hstates =>
    obtain rfl : value = value' := hvalues
    obtain ⟨-, failure, -, -, hrun⟩ | hrun := evaluate_value_cases sum named value
    · rw [hrun hresult, hrun hresult']
      exact ⟨rfl, hstates.user, movesAlike_of_failed hstates⟩
    · obtain ⟨slots, hslots, hended⟩ := hrun hresult
      obtain ⟨slots', hslots', hended'⟩ := hrun hresult'
      rw [hended, hended']
      exact ⟨rfl, hstates.user, movesAlike_of_stored hstates hnamed hslots hslots'⟩

/-- In two states that agree on the variables that a parsed line reads, with users who answer alike,
the line gives the same value or fails in the same way. It asks for the same and writes the same in
both, and every variable that it neither defines nor assigns, apart from the last result of the
kind of its value, keeps in each run what it held there. -/
theorem evaluate_noninterference {source : String} (hparse : Expr.parse source = .ok expr)
    (hdefiners : definer.Alike definer' U) (husers : U before.user before'.user)
    (hreads : ∀ slot, expr.Reads slot → before.slots.get slot = before'.slots.get slot) :
    match expr.evaluate definer before, expr.evaluate definer' before' with
    | .ok outcome after, .ok outcome' after' =>
        outcome = outcome' ∧ expr.MovesAlike (some outcome.value) before before' after after' ∧
          ∀ slot, ¬ expr.Defines slot → ¬ expr.Assigns slot →
            slot ≠ Slot.last outcome.value.kind →
            after.slots.get slot = before.slots.get slot ∧
              after'.slots.get slot = before'.slots.get slot
    | .error failure after, .error failure' after' =>
        failure = failure' ∧ expr.MovesAlike none before before' after after' ∧
          ∀ slot, ¬ expr.Defines slot → after.slots.get slot = before.slots.get slot ∧
            after'.slots.get slot = before'.slots.get slot
    | _, _ => False := by
  have hends := (wellFormed_of_parse hparse).evaluate_alike hdefiners husers hreads
  generalize expr.evaluate definer before = result at hends ⊢
  generalize expr.evaluate definer' before' = result' at hends ⊢
  cases result with
  | ok outcome after =>
    cases result' with
    | error failure' after' => exact hends
    | ok outcome' after' =>
      obtain ⟨hsame, -, hmoves⟩ := hends
      refine ⟨hsame, hmoves, fun slot hdefines hassigns hlast => hmoves.get_eq hdefines ?_⟩
      rintro _ ⟨⟩
      exact ⟨hassigns, hlast⟩
  | error failure after =>
    cases result' with
    | ok outcome' after' => exact hends
    | error failure' after' =>
      obtain ⟨hsame, -, hmoves⟩ := hends
      exact ⟨hsame, hmoves, fun slot hdefines => hmoves.get_eq hdefines nofun⟩

/-- A line that reads `b`, where all other scalars are zero or one. -/
theorem evaluate_noninterference_product :
    let definer : Definer Unit := ⟨fun _ user => (none, user),
      fun _ user => (some ⟨6, 4, by decide⟩, user), fun user => (none, user)⟩
    let before := fun other : Fraction => (⟨{ Slots.fresh 2 2 with
      scalars := (Vector.replicate 26 other).set 1 ⟨3, 4, by decide⟩ }, (), []⟩ : Progress Unit)
    ∃ expr outcome after after', Expr.parse "$a * b -> c" = .ok expr ∧
      expr.evaluate definer (before 0) = .ok outcome after ∧
      expr.evaluate definer (before 1) = .ok outcome after' ∧
      expr.MovesAlike (some outcome.value) (before 0) (before 1) after after' := by
  intro definer before
  let tree := Expr.mk (.term (.join (.factor (.mk false (.variable ⟨.defineScalar, some "a"⟩)))
    .mul (.mk false (.variable ⟨.scalar, some "b"⟩)))) (some ⟨.scalar, some "c"⟩)
  have hwf : tree.WellFormed := by
    refine ⟨⟨⟨'a', rfl, rfl⟩, 'b', rfl, rfl⟩, by decide, ?_⟩
    rintro _ ⟨⟩
    exact ⟨rfl, 'c', rfl, rfl⟩
  have hparse : Expr.parse "$a * b -> c" = .ok tree := by
    have htext : tree.text = "$a * b -> c" := by decide +kernel
    rw [← htext]
    exact hwf.parse_text
  have hdefiners : definer.Alike definer (· = ·) := .refl (fun _ => rfl) (fun _ => rfl) definer
  have hreads : ∀ slot, tree.Reads slot →
      (before 0).slots.get slot = (before 1).slots.get slot := by
    intro slot hslot
    have href : slot.ref ∈ [⟨.defineScalar, some "a"⟩, (Slot.scalar 1).ref] := hslot
    rw [List.mem_cons, List.mem_singleton] at href
    rcases href with hdefine | hread
    · have hplain := slot.ref_defines
      rw [hdefine] at hplain
      cases hplain
    · rw [Slot.ref_injective hread]
      rfl
  have hends := evaluate_noninterference hparse hdefiners (rfl : () = ()) hreads
  have hsucceeds : Evaluation.succeeds (tree.evaluate definer (before 0)) = true := by
    decide +kernel
  have hsucceeds' : Evaluation.succeeds (tree.evaluate definer (before 1)) = true := by
    decide +kernel
  obtain ⟨outcome, after, hrun⟩ := Evaluation.exists_of_succeeds hsucceeds
  obtain ⟨outcome', after', hrun'⟩ := Evaluation.exists_of_succeeds hsucceeds'
  rw [hrun, hrun'] at hends
  obtain ⟨rfl, hmoves, -⟩ := hends
  exact ⟨tree, outcome, after, after', hparse, hrun, hrun', hmoves⟩

end Expr

end MatrixCalc
