import MatrixCalc.Text.Blank
import MatrixCalc.Text.Layout

/-!
# The terminal

A terminal is what the user will type and what has been printed so far. What is typed does not
appear among what is printed. The terminal is assumed to be wider than every line that is printed on
it, so that it wraps none: what is printed is what the program hands over, laid out by
`Text.layout`.
-/

namespace MatrixCalc

/-- What the user does at a prompt: type a line, or press the interrupt key. -/
inductive Typed where
  | line (text : String)
  | interrupt
  deriving DecidableEq, Repr

/-- The answer to a prompt. -/
inductive Reply where
  | line (text : String)
  | interrupted
  | ended
  deriving DecidableEq, Repr

/-- What is still to be typed and what has been printed. `dry` keeps what had been printed when a
prompt first found that nothing more was typed. -/
structure Terminal where
  typed : List Typed
  printed : String
  dry : Option String
  deriving DecidableEq, Repr

namespace Terminal

/-- A terminal on which nothing has been printed. -/
def start (typed : List Typed) : Terminal :=
  ⟨typed, "", none⟩

/-- Prints a text as it appears in print, without ending the line. -/
def put (terminal : Terminal) (text : String) : Terminal :=
  { terminal with printed := terminal.printed ++ Text.layout text }

/-- Prints a text and ends the line. However long the lines of the text are, none is wrapped. -/
def say (terminal : Terminal) (text : String) : Terminal :=
  { terminal with printed := terminal.printed ++ Text.layout text ++ "\n" }

/-- Prints a prompt and takes what is typed there. -/
def prompt (terminal : Terminal) (text : String) : Reply × Terminal :=
  let asked := terminal.put text
  match asked.typed with
  | [] => (.ended, { asked with dry := asked.dry.or (some asked.printed) })
  | .line line :: rest => (.line line, { asked with typed := rest })
  | .interrupt :: rest => (.interrupted, { asked with typed := rest })

/-- Prints a prompt for a value and takes the line typed there. An interrupt ends the line that is
being printed. -/
def ask (terminal : Terminal) (text : String) : Option String × Terminal :=
  match terminal.prompt text with
  | (.line line, next) => (some line, next)
  | (.interrupted, next) => (none, next.say "")
  | (.ended, next) => (none, next)

@[simp] theorem typed_say (terminal : Terminal) (text : String) :
    (terminal.say text).typed = terminal.typed := rfl

/-- An answered prompt uses up what was typed there. -/
theorem length_typed_ask {terminal next : Terminal} {text line : String}
    (h : terminal.ask text = (some line, next)) : next.typed.length < terminal.typed.length := by
  simp only [ask, prompt, put] at h
  cases hTyped : terminal.typed with
  | nil => simp [hTyped] at h
  | cons first rest =>
    cases first <;> simp [hTyped] at h
    simp [← h.2]

end Terminal

end MatrixCalc
