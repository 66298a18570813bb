import MatrixCalc.Display
import MatrixCalc.Proofs.Rendering

/-!
# How far printing goes

Printing goes through to the end unless it meets a number that is too long to be written.
`StopsUnless` says when this is so: for a value if it does not fit (`value_stopsUnless`), for the
variables if one of those that are listed does not fit (`changedSlots_stopsUnless`). A value that
fits is printed between blank lines (`value_of_fits`).
-/

namespace MatrixCalc.Display

variable {α β : Type}

/-- What is printed comes to its end if a condition holds, and else stops at a number that is too
long. -/
structure StopsUnless (condition : Prop) (printing : EStateM Failure Terminal α) : Prop where
  ends : ∀ terminal, match printing terminal with
    | .ok _ _ => condition
    | .error failure _ => failure = .fault .tooLongToWrite ∧ ¬ condition

namespace StopsUnless

variable {condition condition' : Prop}

/-- The condition may be put in other words. -/
theorem of_iff {printing : EStateM Failure Terminal α} (h : StopsUnless condition printing)
    (hiff : condition ↔ condition') : StopsUnless condition' printing :=
  propext hiff ▸ h

/-- Going on with a value prints nothing. -/
theorem pure (value : α) : StopsUnless True (Pure.pure value) :=
  ⟨fun _ => trivial⟩

/-- Printing a text never stops. -/
theorem say (text : String) : StopsUnless True (Display.say text) :=
  ⟨fun _ => trivial⟩

/-- A rendering is available exactly if the value keeps to the limit. -/
theorem available (shown : Value) :
    StopsUnless (shown.fits = true) (Display.available shown.render) := by
  rw [shown.render_eq]
  cases shown.fits with
  | true => exact ⟨fun _ => rfl⟩
  | false => exact ⟨fun _ => ⟨rfl, nofun⟩⟩

/-- Two printings in a row stop unless neither of them does. -/
theorem bind {first : EStateM Failure Terminal α} {next : α → EStateM Failure Terminal β}
    (h : StopsUnless condition first) (hnext : ∀ value, StopsUnless condition' (next value)) :
    StopsUnless (condition ∧ condition') (first >>= next) := by
  refine ⟨fun terminal => ?_⟩
  have hfirst := h.ends terminal
  show match EStateM.bind first next terminal with
    | .ok _ _ => condition ∧ condition'
    | .error failure _ => failure = .fault .tooLongToWrite ∧ ¬ (condition ∧ condition')
  unfold EStateM.bind
  cases hresult : first terminal with
  | error failure middle =>
    rw [hresult] at hfirst
    exact ⟨hfirst.1, fun hboth => hfirst.2 hboth.1⟩
  | ok value middle =>
    rw [hresult] at hfirst
    have hsecond := (hnext value).ends middle
    dsimp only
    cases hresult' : next value middle with
    | error failure after =>
      rw [hresult'] at hsecond
      exact ⟨hsecond.1, fun hboth => hsecond.2 hboth.2⟩
    | ok value' after =>
      rw [hresult'] at hsecond
      exact ⟨hfirst, hsecond⟩

/-- Printing one item after the other stops unless none of them does. -/
theorem forM {condition : α → Prop} {printing : α → Display Unit}
    (h : ∀ item, StopsUnless (condition item) (printing item)) (items : List α) :
    StopsUnless (∀ item ∈ items, condition item) (items.forM printing) := by
  induction items with
  | nil => exact (pure ()).of_iff (by simp)
  | cons first rest ih =>
    refine StopsUnless.of_iff (bind (h first) fun _ => ih) ?_
    rw [List.forall_mem_cons]

end StopsUnless

/-- A value is printed unless it has a number beyond the limit. -/
theorem value_stopsUnless (shown : Value) : StopsUnless (shown.fits = true) (value shown) := by
  refine StopsUnless.of_iff (.bind (.say "") fun _ => .bind (.available shown) fun text =>
    .bind (.say text) fun _ => .say "") ?_
  simp

/-- A result is printed unless it has a number beyond the limit. -/
theorem result_stopsUnless (outcome : Outcome) :
    StopsUnless (outcome.value.fits = true) (result outcome) := by
  obtain ⟨shown, target⟩ := outcome
  cases target with
  | none => exact value_stopsUnless shown
  | some name =>
    refine StopsUnless.of_iff (.bind (.say (name ++ " =")) fun _ => value_stopsUnless shown) ?_
    rw [true_and]

/-- A slot is printed unless it has a number beyond the limit. -/
theorem slot_stopsUnless (slots : Slots) (shown : Slot) :
    StopsUnless ((slots.get shown).fits = true) (slot slots shown) := by
  rw [slot]
  cases slots.get shown with
  | matrix contents =>
    have hbox : StopsUnless _ (Display.available contents.render) := .available (.matrix contents)
    refine StopsUnless.of_iff (.bind (.say _) fun _ => hbox.bind fun text => .say text) ?_
    simp
  | scalar contents =>
    have htext : StopsUnless _ (Display.available contents.reduce.write) :=
      .available (.scalar contents)
    refine StopsUnless.of_iff (htext.bind fun text => .say _) ?_
    rw [and_true]

/-- The changed slots are printed unless one that is listed has a number beyond the limit. -/
theorem changedSlots_stopsUnless (slots : Slots) :
    StopsUnless (∀ slot ∈ listedSlots slots, (slots.get slot).fits = true) (changedSlots slots) :=
  .forM (slot_stopsUnless slots) (listedSlots slots)

/-- A value that fits is printed as it is, between blank lines. -/
theorem value_of_fits {shown : Value} (h : shown.fits = true) (terminal : Terminal) :
    value shown terminal = .ok ()
      { terminal with printed := terminal.printed ++ ("\n" ++ shown.text ++ "\n\n") } := by
  have hrender : shown.render = .ok shown.text := by rw [shown.render_eq, if_pos h]
  have hblank : Text.layout "" = "" := by decide +kernel
  rw [value, hrender]
  show EStateM.Result.ok () (((terminal.say "").say shown.text).say "") = _
  simp only [Terminal.say, hblank, shown.layout_text, String.append_empty, String.append_assoc]
  rfl

end MatrixCalc.Display
