import MatrixCalc.Proofs.Display
import MatrixCalc.Proofs.Evaluation.LineEffect
import MatrixCalc.Session

/-!
# What a line does in a session

A line is a command or an expression, or it is too long to be one (`lineKind`). For each of these
`handle_eq` says what the session does with the line.
-/

namespace MatrixCalc.Session

/-- What a line asks of a session. -/
inductive LineKind where
  /-- To end the session. -/
  | leave
  /-- Nothing, so that a value is shown again. -/
  | blank
  | help
  | vars
  | clear
  /-- The line is no command and longer than is allowed. -/
  | tooLong
  | expression
  deriving DecidableEq

/-- What a line asks for, without the blanks around it. -/
def lineKind (maxLength : Nat) (text : String) : LineKind :=
  if exitCommands.contains text then .leave
  else if text.isEmpty then .blank
  else if text = "help" then .help
  else if text = "vars" then .vars
  else if text = "clear" then .clear
  else if maxLength < text.length then .tooLong
  else .expression

/-- Only `exit` and `quit` end a session. -/
theorem lineKind_eq_leave_iff {maxLength : Nat} {text : String} :
    lineKind maxLength text = .leave ↔ text ∈ exitCommands := by
  rw [← List.contains_iff_mem, lineKind]
  split
  · next h => exact iff_of_true rfl h
  · next h =>
    refine iff_of_false ?_ h
    repeat' split
    all_goals nofun

/-- Where an expression starts to be evaluated. -/
def progress (session : Session) : Progress Terminal :=
  ⟨session.slots, session.terminal, []⟩

/-- The session after an evaluation, whether it succeeded or not. -/
def resumed (session : Session) (progress : Progress Terminal) : Session :=
  { session with slots := progress.slots, terminal := progress.user }

/-- A session that prints something and goes on. -/
def shows (printing : Display Unit) : SessionStep Bool := do
  display printing
  pure true

/-- What a session does with an expression. -/
def evaluates (session : Session) (text : String) : EStateM.Result Failure Session Bool :=
  match Expr.evaluateLine Entry.definer text session.progress with
  | .ok outcome progress =>
      shows (Display.result outcome) { session.resumed progress with last := some outcome.value }
  | .error (.report shown) progress => .ok true { session.resumed progress with
      terminal := Display.problem progress.user shown.context shown.message }
  | .error (.fault fault) progress => .error (.fault fault) (session.resumed progress)

/-- The problem that a line is too long. -/
def refused (session : Session) : Session :=
  { session with
    terminal := Display.problem session.terminal none
      s!"input is longer than {session.maxLength} characters" }

/-- A line that is not too long is evaluated, and one that is too long is refused. -/
theorem evaluate_eq (text : String) (session : Session) :
    (do evaluate text; pure true : SessionStep Bool) session =
      if session.maxLength < text.length then .ok true session.refused
      else session.evaluates text := by
  show ((if session.maxLength < text.length then _ else _ : SessionStep Unit) >>=
    fun _ => pure true : SessionStep Bool) session = _
  split
  · rfl
  · rw [evaluates, progress]
    cases Expr.evaluateLine Entry.definer text ⟨session.slots, session.terminal, []⟩ with
    | ok outcome progress => rfl
    | error failure progress => cases failure <;> rfl

/-- What a session does with a line. -/
theorem handle_eq (line : String) (session : Session) :
    handle line session =
      match lineKind session.maxLength (Text.strip line) with
      | .leave => .ok false session
      | .blank => shows (Display.value session.shownValue) session
      | .help =>
          shows (do Display.say Display.languageHelp; Display.say Display.functionTable) session
      | .vars => shows (Display.changedSlots session.slots) session
      | .clear => .ok true { session with slots := session.slots.reset, last := none }
      | .tooLong => .ok true session.refused
      | .expression => session.evaluates (Text.strip line) := by
  unfold handle lineKind
  generalize Text.strip line = text
  by_cases hleave : exitCommands.contains text = true
  · simp only [hleave, ↓reduceIte]
    rfl
  by_cases hblank : text.isEmpty = true
  · simp only [hleave, hblank, ↓reduceIte]
    rfl
  by_cases hhelp : text = "help"
  · subst hhelp
    rfl
  by_cases hvars : text = "vars"
  · subst hvars
    rfl
  by_cases hclear : text = "clear"
  · subst hclear
    rfl
  simp only [hleave, hblank, hhelp, hvars, hclear, ↓reduceIte]
  refine (evaluate_eq text session).trans ?_
  split <;> rfl

end MatrixCalc.Session
