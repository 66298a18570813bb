import MatrixCalc.Numeral

/-!
# Settings

Settings come from environment variables. One that is not set or makes no sense is replaced by its
default, and in the second case a warning is given.
-/

namespace MatrixCalc

/-- The levels of the log that can be set. -/
inductive LogLevel where
  | debug
  | info
  | warning
  | error
  | critical
  deriving DecidableEq, Repr

namespace LogLevel

/-- Every level. -/
def all : List LogLevel :=
  [debug, info, warning, error, critical]

/-- The name of a level. -/
def name : LogLevel → String
  | debug => "DEBUG"
  | info => "INFO"
  | warning => "WARNING"
  | error => "ERROR"
  | critical => "CRITICAL"

/-- The weight from which on messages are logged. -/
def weight : LogLevel → Nat
  | debug => 10
  | info => 20
  | warning => 30
  | error => 40
  | critical => 50

/-- A letter in upper case, as far as that is a letter of ASCII: this also makes `I` of the
dotless i and `S` of the long s. -/
def upperLetter (char : Char) : Char :=
  if char.toNat = 0x131 then 'I'
  else if char.toNat = 0x17F then 'S'
  else char.toUpper

/-- A name of a level in the case in which it is compared. -/
def upper (name : String) : String :=
  String.ofList (name.toList.map upperLetter)

/-- The level with a name, in either case and between any blanks. -/
def ofSetting? (text : String) : Option LogLevel :=
  all.find? fun level => level.name = upper (Text.strip text)

/-- Other names under which levels are known, with their weights. -/
def aliases : List (String × Nat) :=
  [("FATAL", critical.weight), ("WARN", warning.weight), ("NOTSET", 0)]

/-- The weight for a name in either case. An unknown name counts as `WARNING`. -/
def weightOf (name : String) : Nat :=
  let known := all.map (fun level => (level.name, level.weight)) ++ aliases
  match known.find? fun entry => entry.1 = upper name with
  | some entry => entry.2
  | none => warning.weight

/-- The weight to log from, given the name of the level and whether everything is asked for. -/
def threshold (name : String) (verbose : Bool) : Nat :=
  if verbose then debug.weight else weightOf name

end LogLevel

/-- The settings of a run. -/
structure Settings where
  logLevel : LogLevel
  defaultRows : Nat
  defaultCols : Nat
  maxLength : Nat
  deriving DecidableEq, Repr

namespace Settings

/-- What the names of the environment variables begin with. -/
def variablePrefix : String := "ROWSOFB_"

/-- The warning about a variable whose value makes no sense. -/
def warning (name raw reason : String) : String :=
  "Ignoring " ++ variablePrefix ++ name ++ "=" ++ Text.quote raw ++ ": " ++ reason

/-- The level of the log, and the warnings about it. -/
def loadLevel (raw : Option String) : LogLevel × List String :=
  match raw with
  | none => (.warning, [])
  | some text =>
      match LogLevel.ofSetting? text with
      | some level => (level, [])
      | none => (.warning, [warning "LOG_LEVEL" text "unknown level"])

/-- A number from the least that is allowed on, and the warnings about it. -/
def loadNumber (name : String) (default least : Nat) (raw : Option String) :
    Nat × List String :=
  match raw with
  | none => (default, [])
  | some text =>
      match Numeral.read text with
      | .error _ => (default, [warning name text "not an integer"])
      | .ok value =>
          if value < least then (default, [warning name text s!"must be at least {least}"])
          else (value.toNat, [])

/-- The settings in an environment, and the warnings about it. -/
def load (lookup : String → Option String) : Settings × List String :=
  let raw := fun name => lookup (variablePrefix ++ name)
  let level := loadLevel (raw "LOG_LEVEL")
  let rows := loadNumber "DEFAULT_ROWS" 3 0 (raw "DEFAULT_ROWS")
  let cols := loadNumber "DEFAULT_COLS" 3 0 (raw "DEFAULT_COLS")
  let length := loadNumber "MAX_INPUT_LENGTH" 1000 1 (raw "MAX_INPUT_LENGTH")
  (⟨level.1, rows.1, cols.1, length.1⟩, level.2 ++ rows.2 ++ cols.2 ++ length.2)

end Settings

end MatrixCalc
