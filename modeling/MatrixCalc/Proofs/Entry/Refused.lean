import MatrixCalc.Proofs.Entry.Basic

/-!
# Lines that are refused

A line that is refused is answered by a problem and then forgotten: without it the entry ends with
the same value and at the same place (`DropsRefused.collect_eq`). `kept` leaves all such lines out.
-/

namespace MatrixCalc.Entry

variable {σ α : Type} {judge : σ → String → Verdict σ α} {state : σ}

/-! ## Entries without what is printed -/

/-- What comes of typed lines: the value that is entered, and the lines that are not read. -/
def entered (judge : σ → String → Verdict σ α) (state : σ) :
    List Typed → Option α × List Typed
  | [] => (none, [])
  | .interrupt :: rest => (none, rest)
  | .line line :: rest =>
      match judge state line with
      | .finished answer => (answer, rest)
      | .accepted after => entered judge after rest
      | .refused _ => entered judge state rest

/-- What is printed at the prompts has no influence on what is entered. -/
theorem collect_eq_entered (prompt : String) (judge : σ → String → Verdict σ α) (state : σ)
    (terminal : Terminal) :
    ((collect prompt judge state terminal).1, (collect prompt judge state terminal).2.typed) =
      entered judge state terminal.typed := by
  generalize htyped : terminal.typed = typed
  induction typed generalizing terminal state with
  | nil =>
    have hline : ∀ line rest, terminal.typed ≠ .line line :: rest := by simp [htyped]
    obtain ⟨next, hcollect, hnext⟩ := collect_without_line hline prompt judge state
    rw [hcollect, hnext, htyped]
    rfl
  | cons first rest ih =>
    cases first with
    | interrupt =>
      have hline : ∀ line rest, terminal.typed ≠ .line line :: rest := by simp [htyped]
      obtain ⟨next, hcollect, hnext⟩ := collect_without_line hline prompt judge state
      rw [hcollect, hnext, htyped]
      rfl
    | line line =>
      rw [collect_line htyped, entered]
      cases judge state line with
      | finished answer => rfl
      | accepted after => exact ih after _ rfl
      | refused message => exact ih state _ (Display.typed_problem _ _ _)

/-! ## Lines that are left out -/

/-- The second list is what is left of the first one without some of the lines that are refused. -/
inductive DropsRefused (judge : σ → String → Verdict σ α) : σ → List Typed → List Typed → Prop
  | rest (state : σ) (typed : List Typed) : DropsRefused judge state typed typed
  | accepted {state after : σ} {line : String} {typed typed' : List Typed}
      (hline : judge state line = .accepted after)
      (htyped : DropsRefused judge after typed typed') :
      DropsRefused judge state (.line line :: typed) (.line line :: typed')
  | refused {state : σ} {line message : String} {typed typed' : List Typed}
      (hline : judge state line = .refused message)
      (htyped : DropsRefused judge state typed typed') :
      DropsRefused judge state (.line line :: typed) (.line line :: typed')
  | dropped {state : σ} {line message : String} {typed typed' : List Typed}
      (hline : judge state line = .refused message)
      (htyped : DropsRefused judge state typed typed') :
      DropsRefused judge state (.line line :: typed) typed'

/-- Refused lines may be left out. -/
theorem DropsRefused.entered_eq {typed typed' : List Typed}
    (h : DropsRefused judge state typed typed') :
    entered judge state typed = entered judge state typed' := by
  induction h with
  | rest state typed => rfl
  | accepted hline _ ih => simpa only [entered, hline] using ih
  | refused hline _ ih => simpa only [entered, hline] using ih
  | dropped hline _ ih => simpa only [entered, hline] using ih

/-- Without refused lines the same value is entered, and the same lines are not read. -/
theorem DropsRefused.collect_eq {typed typed' : List Typed}
    (h : DropsRefused judge state typed typed') (prompt : String) {terminal terminal' : Terminal}
    (hterminal : terminal.typed = typed) (hterminal' : terminal'.typed = typed') :
    (collect prompt judge state terminal).1 = (collect prompt judge state terminal').1 ∧
      (collect prompt judge state terminal).2.typed =
        (collect prompt judge state terminal').2.typed := by
  have hboth := collect_eq_entered prompt judge state terminal
  rw [hterminal, h.entered_eq, ← hterminal', ← collect_eq_entered prompt judge state terminal']
    at hboth
  exact Prod.mk.inj hboth

/-- The typed lines without those that are refused. Behind the end of the entry all are kept. -/
def kept (judge : σ → String → Verdict σ α) (state : σ) : List Typed → List Typed
  | [] => []
  | .interrupt :: rest => .interrupt :: rest
  | .line line :: rest =>
      match judge state line with
      | .finished _ => .line line :: rest
      | .accepted after => .line line :: kept judge after rest
      | .refused _ => kept judge state rest

/-- What is kept of some lines is all but the refused ones. -/
theorem dropsRefused_kept (judge : σ → String → Verdict σ α) (state : σ) (typed : List Typed) :
    DropsRefused judge state typed (kept judge state typed) := by
  induction typed generalizing state with
  | nil => exact .rest state []
  | cons first rest ih =>
    cases first with
    | interrupt => exact .rest state _
    | line line =>
      rw [kept]
      cases hline : judge state line with
      | finished answer => exact .rest state _
      | accepted after => exact .accepted hline (ih after)
      | refused message => exact .dropped hline (ih state)

end MatrixCalc.Entry
