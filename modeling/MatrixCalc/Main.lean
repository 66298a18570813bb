import MatrixCalc.Command

/-!
# The command line

Runs the command named by the arguments. A command is a function of everything that is typed; it is
run again with one more line whenever it asks for more, and what is new in print is written out.
-/

namespace MatrixCalc.Main

/-- The settings in the environment of the process. -/
def loadSettings : IO Settings := do
  let names := ["LOG_LEVEL", "DEFAULT_ROWS", "DEFAULT_COLS", "MAX_INPUT_LENGTH"]
  let values ← names.mapM fun name => do
    let full := Settings.variablePrefix ++ name
    return (full, ← IO.getEnv full)
  return (Settings.load fun name => (values.lookup name).join).1

/-- Writes what a terminal shows beyond the characters that were written before. -/
def writeNew (written : Nat) (printed : String) : IO Unit := do
  let out ← IO.getStdout
  out.putStr (printed.drop written).toString
  out.flush

/-- Runs a command, reading lines as it asks for them. -/
partial def converse (settings : Settings) (command : Command) (typed : List Typed)
    (written : Nat) : IO CommandEnd := do
  let finished := command.run settings (.start typed)
  match finished.terminal.dry with
  | none =>
      writeNew written finished.terminal.printed
      return finished
  | some shown =>
      writeNew written shown
      let line ← (← IO.getStdin).getLine
      if line.isEmpty then
        writeNew shown.length finished.terminal.printed
        return finished
      else
        let text := String.ofList (line.toList.reverse.dropWhile (· = '\n')).reverse
        converse settings command (typed ++ [.line text]) shown.length

end MatrixCalc.Main

/-- Runs the command named by the arguments and returns its exit code. -/
def main (arguments : List String) : IO UInt32 := do
  match MatrixCalc.Command.ofArguments arguments with
  | none =>
      IO.eprintln "usage: [--verbose] [eval [--no-input] EXPRESSION | repl | functions]"
      return 2
  | some command =>
      let finished ← MatrixCalc.Main.converse (← MatrixCalc.Main.loadSettings) command [] 0
      if let some failure := finished.failure then
        IO.eprintln failure.text
      return finished.exitCode.toUInt32
