import MatrixCalc.Session
import MatrixCalc.Settings

/-!
# Commands

The commands of the program: evaluating one expression, holding a session, and listing the
functions. A command runs on a terminal and ends with an exit code.
-/

namespace MatrixCalc

/-- A command with its options. -/
inductive Command where
  /-- Evaluates an expression. Without input, requests for values are cancelled. -/
  | evaluate (expression : String) (withoutInput : Bool)
  | session
  | functions
  deriving DecidableEq, Repr

/-- How a command ended: its exit code, the terminal, and the failure that it did not survive. -/
structure CommandEnd where
  exitCode : Nat
  terminal : Terminal
  failure : Option Failure

namespace Command

/-- The version of the program. -/
def version : String := "0.1.0"

/-- The line that a session begins with. -/
def greeting : String :=
  "RowsOfB: type 'help' for the language, 'exit' to leave."

/-- The end of a command that printed something. -/
def afterPrinting (terminal : Terminal) (printing : Display Unit) : CommandEnd :=
  match printing terminal with
  | .ok _ terminal => ⟨0, terminal, none⟩
  | .error failure terminal => ⟨1, terminal, some failure⟩

/-- Evaluates an expression and prints its value or what is wrong with it. -/
def runEvaluate (settings : Settings) (expression : String) (withoutInput : Bool)
    (terminal : Terminal) : CommandEnd :=
  if settings.maxLength < expression.length then
    let message := s!"input is longer than {settings.maxLength} characters"
    ⟨1, Display.problem terminal none message, none⟩
  else
    let definer := if withoutInput then Entry.noDefiner else Entry.definer
    let slots := Slots.fresh settings.defaultRows settings.defaultCols
    match Expr.evaluateLine definer expression ⟨slots, terminal, []⟩ with
    | .ok outcome progress => afterPrinting progress.user (Display.result outcome)
    | .error (.report shown) progress => ⟨1, Display.report progress.user shown, none⟩
    | .error failure progress => ⟨1, progress.user, some failure⟩

/-- Holds a session. -/
def runSession (settings : Settings) (terminal : Terminal) : CommandEnd :=
  let slots := Slots.fresh settings.defaultRows settings.defaultCols
  match Session.run (.start slots settings.maxLength (terminal.say greeting)) with
  | .ok _ left => ⟨0, left.terminal, none⟩
  | .error failure left => ⟨1, left.terminal, some failure⟩

/-- Runs a command. -/
def run (settings : Settings) (terminal : Terminal) : Command → CommandEnd
  | evaluate expression withoutInput => runEvaluate settings expression withoutInput terminal
  | session => runSession settings terminal
  | functions => afterPrinting terminal (Display.say Display.functionTable)

/-- The command named by the arguments of the program. -/
def ofArguments : List String → Option Command
  | [] | ["repl"] => some session
  | ["functions"] => some functions
  | ["eval", "--", expression] | ["eval", expression] => some (evaluate expression false)
  | ["eval", "--no-input", "--", expression] | ["eval", "--no-input", expression] =>
      some (evaluate expression true)
  | "--verbose" :: rest => ofArguments rest
  | _ => none

end Command

end MatrixCalc
