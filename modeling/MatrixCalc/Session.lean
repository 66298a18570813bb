import MatrixCalc.Entry

/-!
# Sessions

A session reads lines until one of them is `exit` or `quit` or there are no more. A line is a
session command or an expression; a problem with an expression is reported and the session goes
on. A blank line shows the last value again.
-/

namespace MatrixCalc

/-- The state of a session: the variables, the last value that was computed, the greatest length
of a line, and the terminal. -/
structure Session where
  slots : Slots
  last : Option Value
  maxLength : Nat
  terminal : Terminal

/-- A step of a session. It leaves a state behind also when it fails. -/
abbrev SessionStep := EStateM Failure Session

namespace Session

/-- A session that has just begun. -/
def start (slots : Slots) (maxLength : Nat) (terminal : Terminal) : Session :=
  ⟨slots, none, maxLength, terminal⟩

/-- The commands that end a session. -/
def exitCommands : List String :=
  ["exit", "quit"]

/-- Prints on the terminal of the session. -/
def display (printing : Display Unit) : SessionStep Unit := fun session =>
  match printing session.terminal with
  | .ok _ terminal => .ok () { session with terminal }
  | .error failure terminal => .error failure { session with terminal }

/-- Prints a problem on the terminal of the session. -/
def problem (context : Option Context) (message : String) : SessionStep Unit :=
  modify fun session =>
    { session with terminal := Display.problem session.terminal context message }

/-- Evaluates an expression and prints its value or what is wrong with it. -/
def evaluate (text : String) : SessionStep Unit := do
  let session ← get
  if session.maxLength < text.length then
    problem none s!"input is longer than {session.maxLength} characters"
  else
    match Expr.evaluateLine Entry.definer text ⟨session.slots, session.terminal, []⟩ with
    | .ok outcome progress =>
        set { session with
          slots := progress.slots, terminal := progress.user, last := some outcome.value }
        display (Display.result outcome)
    | .error failure progress =>
        set { session with slots := progress.slots, terminal := progress.user }
        match failure with
        | .report shown => problem shown.context shown.message
        | .fault _ => throw failure

/-- The value that a blank line shows: the last one, or else the matrix `Z`. -/
def shownValue (session : Session) : Value :=
  session.last.getD (session.slots.get Slot.lastMatrix)

/-- Answers one line, and says whether the session goes on. -/
def handle (line : String) : SessionStep Bool := do
  let text := Text.strip line
  if exitCommands.contains text then pure false
  else do
    let session ← get
    if text.isEmpty then display (Display.value session.shownValue)
    else if text = "help" then display do
      Display.say Display.languageHelp
      Display.say Display.functionTable
    else if text = "vars" then display (Display.changedSlots session.slots)
    else if text = "clear" then set { session with slots := session.slots.reset, last := none }
    else evaluate text
    pure true

/-- Prompts for a line. -/
def promptLine : SessionStep (Option String) := fun session =>
  match session.terminal.prompt "> " with
  | (.line line, terminal) => .ok (some line) { session with terminal }
  | (_, terminal) => .ok none { session with terminal := terminal.say "" }

/-- Reads and answers lines, at most the given number of them. -/
def rounds : Nat → SessionStep Unit
  | 0 => do
      let _ ← promptLine
      pure ()
  | count + 1 => do
      match ← promptLine with
      | none => pure ()
      | some line =>
          if ← handle line then rounds count else pure ()

/-- Reads and answers lines until the session ends. Every line that is read is one of those that
were typed, so these are enough rounds. -/
def run : SessionStep Unit := do
  let session ← get
  rounds session.terminal.typed.length

end Session

end MatrixCalc
