import MatrixCalc.Evaluation
import MatrixCalc.Terminal

/-!
# What is printed

Printing of values, results, problems, variables and help. A number that is too long stops the
printing of a value; what was printed before it stays.
-/

namespace MatrixCalc

/-- A computation that prints. -/
abbrev Display := EStateM Failure Terminal

namespace Display

/-- Prints a line. -/
def say (text : String) : Display Unit :=
  modify fun terminal => terminal.say text

/-- A text that may not exist because a number in it is too long. -/
def available (text : Except Failure String) : Display String :=
  match text with
  | .ok shown => pure shown
  | .error failure => throw failure

/-- A text without the full stops at its end. -/
def withoutStops (text : String) : String :=
  String.ofList (text.toList.reverse.dropWhile (· = '.')).reverse

/-- Prints a message as a problem, below the place in the line that it is about. -/
def problem (terminal : Terminal) (context : Option Context) (message : String) : Terminal :=
  let placed := match context with
    | none => terminal
    | some place => terminal.say place.format
  placed.say ("[!] " ++ withoutStops message ++ ".")

@[simp] theorem typed_problem (terminal : Terminal) (context : Option Context)
    (message : String) : (problem terminal context message).typed = terminal.typed := by
  cases context <;> simp [problem]

/-- Prints a report as a problem. -/
def report (terminal : Terminal) (shown : Report) : Terminal :=
  problem terminal shown.context shown.message

/-- Prints a value between blank lines. -/
def value (shown : Value) : Display Unit := do
  say ""
  say (← available shown.render)
  say ""

/-- Prints the value of a line, below the name of the variable that it was assigned to. -/
def result (outcome : Outcome) : Display Unit := do
  match outcome.target with
  | none => pure ()
  | some name => say (name ++ " =")
  value outcome.value

/-- Prints the name and the contents of a variable. -/
def slot (slots : Slots) (shown : Slot) : Display Unit :=
  match slots.get shown with
  | .matrix contents => do
      say (shown.name ++ " =")
      say (← available contents.render)
  | .scalar contents => do
      say (shown.name ++ " = " ++ (← available contents.reduce.write))

/-- The variables to list: those that were changed, and the last results in any case. -/
def listedSlots (slots : Slots) : List Slot :=
  let changed := slots.modified
  changed ++ [Slot.lastMatrix, Slot.lastScalar].filter fun last => !changed.contains last

/-- Prints the variables. -/
def changedSlots (slots : Slots) : Display Unit :=
  (listedSlots slots).forM (slot slots)

/-- The summary of the language. -/
def languageHelp : String :=
  "Expressions combine numbers, variables and function calls with + - * /.\n" ++
  "\n" ++
  "  A-Z     matrix variables (default: zero matrices)\n" ++
  "  a-z     scalar variables (default: 0)\n" ++
  "  $A $a   define a variable interactively, then use its value\n" ++
  "  $$      enter a one-off matrix without storing it\n" ++
  "  -> X    store the result in a variable\n" ++
  "\n" ++
  "Z and z always hold the last matrix and scalar result.\n" ++
  "Multiplications between divisions group first: 2*3/4*6 is (2*3)/(4*6).\n" ++
  "\n" ++
  "Session commands: help, vars, clear, exit.\n"

/-- A horizontal line of a table, with margins of one character around columns of the given
widths. -/
def tableRule (left line middle right : String) (widths : List Nat) : String :=
  let stretch := fun width => String.join (List.replicate (width + 2) line)
  left ++ String.intercalate middle (widths.map stretch) ++ right

/-- A line of a table that shows one cell in each column. -/
def tableLine (bar : String) (widths : List Nat) (cells : List String) : String :=
  let padded := List.zipWith Text.padRight widths cells
  bar ++ " " ++ String.intercalate (" " ++ bar ++ " ") padded ++ " " ++ bar

/-- A table with a title above it and a heading over each column. -/
def table (title : String) (headings : List String) (body : List (List String)) : String :=
  let widths := headings.zipIdx.map fun heading =>
    (body.map fun cells => (cells.getD heading.2 "").length).foldl max heading.1.length
  let top := tableRule "┏" "━" "┳" "┓" widths
  String.intercalate "\n"
    ([Text.centred top.length title, top, tableLine "┃" widths headings,
      tableRule "┡" "━" "╇" "┩" widths]
      ++ body.map (tableLine "│" widths)
      ++ [tableRule "└" "─" "┴" "┘" widths])

/-- The table of the functions. -/
def functionTable : String :=
  table "Functions" ["Function", "Description"]
    (Builtin.all.map fun builtin => [builtin.usage, builtin.summary])

end Display

end MatrixCalc
