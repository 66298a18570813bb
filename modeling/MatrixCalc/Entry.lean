import MatrixCalc.Display

/-!
# Entering values

Values are entered at prompts: a matrix one row a line with a blank line at the end, a scalar on
one line. A line that cannot be read is answered by a problem and asked for again. A blank line at
the start, an interrupt and the end of the input cancel.
-/

namespace MatrixCalc.Entry

/-- Whether a line holds nothing but blanks. -/
def isBlankLine (line : String) : Bool :=
  line.toList.all Text.isBlank

/-- The fractions in the fields of a line. -/
def readFields (line : String) : Except Failure (List Fraction) :=
  (Text.fields line).mapM Fraction.parse

/-- What becomes of a line that is typed: it ends the entry, with or without a value, or it is
accepted as a part of it, or it is refused with a message. -/
inductive Verdict (σ α : Type) where
  | finished (answer : Option α)
  | accepted (state : σ)
  | refused (message : String)

/-- Prompts for lines until one of them ends the entry. What was accepted so far is the state. -/
def collect {σ α : Type} (prompt : String) (judge : σ → String → Verdict σ α) (state : σ)
    (terminal : Terminal) : Option α × Terminal :=
  match _h : terminal.ask prompt with
  | (none, next) => (none, next)
  | (some line, next) =>
      match judge state line with
      | .finished answer => (answer, next)
      | .accepted state => collect prompt judge state next
      | .refused message => collect prompt judge state (Display.problem next none message)
termination_by terminal.typed.length
decreasing_by
  all_goals simpa using Terminal.length_typed_ask _h

/-- The matrix with these rows, if there are any and they are of one length. -/
def matrixOfRows (rows : List (List Fraction)) : Option RatMatrix :=
  if rows.isEmpty then none
  else (RatMatrix.ofRows (rows.map fun row => row.map .fraction)).toOption

/-- A line of a matrix. A blank line ends the matrix; the first row decides on the width of the
others; rows are kept in lowest terms. -/
def judgeRow (rows : List (List Fraction)) (line : String) :
    Verdict (List (List Fraction)) RatMatrix :=
  if isBlankLine line then .finished (matrixOfRows rows)
  else match readFields line with
    | .error failure => .refused (failure.text ++ "; re-enter the row")
    | .ok entries =>
        let width := (rows.head?.map List.length).getD entries.length
        if entries.length = width then .accepted (rows ++ [entries.map Fraction.reduce])
        else .refused s!"uneven columns: expected {width} entries, got {entries.length}"

/-- Asks for a matrix under a title. -/
def readMatrix (title : String) (terminal : Terminal) : Option RatMatrix × Terminal :=
  collect "  " judgeRow []
    (terminal.say (title ++ ": one row per line, blank line to finish"))

/-- The line of a scalar. A blank line cancels. -/
def judgeScalar (_ : Unit) (line : String) : Verdict Unit Fraction :=
  if isBlankLine line then .finished none
  else match Fraction.parse (Text.strip line) with
    | .ok value => .finished (some value)
    | .error failure => .refused failure.text

/-- Asks for a scalar. -/
def readScalar (name : String) (terminal : Terminal) : Option Fraction × Terminal :=
  collect (name ++ " = ") judgeScalar ()
    (terminal.say s!"Define scalar {name} (blank line cancels)")

/-- The definer that asks the user at the terminal. -/
def definer : Definer Terminal where
  matrix name := readMatrix ("Define matrix " ++ name)
  scalar name := readScalar name
  anonymous := readMatrix "Define a matrix"

/-- The definer without a user: every request is cancelled. -/
def noDefiner {σ : Type} : Definer σ where
  matrix _ user := (none, user)
  scalar _ user := (none, user)
  anonymous user := (none, user)

end MatrixCalc.Entry
