import MatrixCalc.Kind
import MatrixCalc.Token.Basic
import MatrixCalc.Syntax.Basic
import MatrixCalc.Text.Quoted

/-!
# Reports and faults

What can go wrong comes in two sorts. A `Report` is about what the user wrote or entered: it is
shown, possibly under the place in the line, and the session goes on. A `Fault` is anything else,
such as a number too long to be written out; a session does not survive it. Each cause is a
constructor, and `Cause.message` and `Fault.message` hold the wording. Reports and faults are told
apart by the class they belong to, not by their wording.
-/

namespace MatrixCalc

/-- The most decimal digits of an integer that is read from text or written to it. -/
def Numeral.digitLimit : Nat := 4300

/-- Whether an integer has no more decimal digits than the limit. -/
def Numeral.fits (value : Int) : Bool :=
  value.natAbs < Nat.pow 10 digitLimit

/-- The most groups and calls that stand inside one another in a line. -/
def nestingLimit : Nat := 100

/-- The causes of reports. -/
inductive Cause where
  /-- No token starts with the character at this position. -/
  | unrecognized (char : Char) (pos : Nat)
  /-- A token of another kind was needed where this one stands. -/
  | unexpected (expected : List TokenKind) (found : TokenKind) (pos : Int)
  /-- A group or call inside as many others as are allowed. -/
  | nestedTooDeeply (found : TokenKind) (pos : Int)
  /-- `->` names something that takes no value. -/
  | notAssignable (target : VarRef)
  /-- A sum of a scalar and a matrix. -/
  | mixedSum
  | scalarOverMatrix
  | matrixOverMatrix
  | matrixIntoScalar
  | scalarIntoMatrix
  /-- A matrix with a negative number of rows or columns. -/
  | negativeSize (rows cols : Int)
  /-- A matrix given by the wrong number of entries. -/
  | entryCount (rows cols count : Nat)
  /-- A matrix given by rows of different lengths. -/
  | unevenRows
  /-- A sum or difference, in an expression, of matrices of different sizes. -/
  | summandSizes
  /-- A sum of matrices of different sizes. -/
  | additionSizes
  | productSizes (leftRows leftCols rightRows rightCols : Nat)
  | augmentedRows
  | inverseOfNonSquare
  | singular
  /-- A fraction over zero. -/
  | zeroDenominator (numerator : Int)
  | reciprocalOfZero
  /-- A name that no variable has. -/
  | invalidName (name : String)
  /-- The name of a variable that holds values of the other kind. -/
  | wrongKind (name : String) (wanted : Kind)
  | unknownFunction (name : String)
  | argumentCount (function : String) (taken supplied : Nat)
  | argumentKinds (function : String) (taken supplied : List Kind)
  /-- The size of an identity matrix is not whole. -/
  | fractionalSize
  /-- The size of an identity matrix is below zero. -/
  | sizeBelowZero
  /-- The user gave no value for a variable to be defined. -/
  | cancelled
  deriving DecidableEq, Repr

namespace Cause

/-- A list of kinds with commas between them. -/
def kindList (kinds : List Kind) : String :=
  String.intercalate ", " (kinds.map Kind.name)

/-- What was needed and what stood there. -/
def unexpectedMessage (expected : List TokenKind) (found : TokenKind) : String :=
  let wanted := match expected with
    | [kind] => Text.quote kind.name
    | kinds => "one of (" ++ String.intercalate ", " (kinds.map fun kind => Text.quote kind.name)
        ++ ")"
  "expected " ++ wanted ++ " but found " ++ Text.quote found.name

/-- The wording of a cause. -/
def message : Cause → String
  | unrecognized char _ =>
      "unrecognized token starting at " ++ Text.quote (String.singleton char)
  | unexpected expected found _ => unexpectedMessage expected found
  | nestedTooDeeply _ _ =>
      s!"expression nested too deeply (more than {nestingLimit} levels)"
  | notAssignable target => "cannot assign to " ++ target.text
  | mixedSum => "cannot perform addition or subtraction with a scalar and a matrix"
  | scalarOverMatrix => "cannot divide a scalar by a matrix"
  | matrixOverMatrix => "cannot divide a matrix by a matrix"
  | matrixIntoScalar => "cannot assign a matrix value to a scalar variable"
  | scalarIntoMatrix => "cannot assign a scalar value to a matrix variable"
  | negativeSize rows cols => s!"invalid matrix size {rows}x{cols}"
  | entryCount rows cols count =>
      s!"a {rows}x{cols} matrix needs {rows * cols} values, got {count}"
  | unevenRows => "all rows must have the same number of entries"
  | summandSizes =>
      "cannot perform addition or subtraction on two matrices of different sizes"
  | additionSizes => "addition requires two identically-sized matrices"
  | productSizes leftRows leftCols rightRows rightCols =>
      s!"cannot multiply a {leftRows}x{leftCols} matrix by a {rightRows}x{rightCols} matrix"
  | augmentedRows => "augmented matrices must have equal row counts"
  | inverseOfNonSquare => "non-square matrices have no inverse"
  | singular => "matrix has no inverse"
  | zeroDenominator numerator => s!"zero denominator in {numerator}/0"
  | reciprocalOfZero => "cannot take the reciprocal of zero"
  | invalidName name => Text.quote name ++ " is not a valid variable name"
  | wrongKind name wanted => Text.quote name ++ " is not a " ++ wanted.name ++ " variable"
  | unknownFunction name => Text.quote name ++ " is not a valid function"
  | argumentCount function taken supplied =>
      s!"call to {function} takes {taken} arguments, but was supplied {supplied}"
  | argumentKinds function taken supplied =>
      "call to " ++ function ++ " expects arguments (" ++ kindList taken
        ++ ") but was supplied (" ++ kindList supplied ++ ")"
  | fractionalSize => "size must be an integer"
  | sizeBelowZero => "size must be positive"
  | cancelled => "user cancelled input"

/-- The numbers in the wording of a cause that can be of any size. A number that counts what is
there, such as the arguments of a call, is not among them. -/
def numbers : Cause → List Int
  | negativeSize rows cols => [rows, cols]
  | entryCount rows cols _ => [rows, cols, rows * cols]
  | productSizes leftRows leftCols rightRows rightCols =>
      [leftRows, leftCols, rightRows, rightCols]
  | zeroDenominator numerator => [numerator]
  | _ => []

/-- The kinds of token that would have been accepted, for a cause found while parsing. -/
def expectedKinds : Cause → List TokenKind
  | unexpected expected _ _ => expected
  | _ => []

end Cause

/-- The classes of reports. -/
inductive ReportClass where
  /-- A character starts no token. -/
  | lexical
  /-- The tokens are not a line. -/
  | syntactic
  /-- A target takes no value at all. -/
  | general
  /-- Scalars and matrices are mixed up. -/
  | mismatch
  /-- The sizes of matrices do not fit. -/
  | dimension
  | singular
  | zeroDivision
  | unknownVariable
  | unknownFunction
  /-- A function does not take arguments of these kinds. -/
  | signature
  /-- A function does not take an argument of this value. -/
  | invalidArgument
  | cancelled
  deriving DecidableEq, Repr

/-- The name of a class of reports. -/
def ReportClass.name : ReportClass → String
  | lexical => "LexError"
  | syntactic => "ParseError"
  | general => "EvaluationError"
  | mismatch => "TypeMismatchError"
  | dimension => "DimensionError"
  | singular => "SingularMatrixError"
  | zeroDivision => "DivisionByZeroError"
  | unknownVariable => "UnknownVariableError"
  | unknownFunction => "UnknownFunctionError"
  | signature => "SignatureError"
  | invalidArgument => "InvalidArgumentError"
  | cancelled => "InputCancelledError"

/-- The class of reports of a cause. -/
def Cause.reportClass : Cause → ReportClass
  | unrecognized .. => .lexical
  | unexpected .. | nestedTooDeeply .. => .syntactic
  | notAssignable _ => .general
  | mixedSum | scalarOverMatrix | matrixOverMatrix | matrixIntoScalar | scalarIntoMatrix =>
      .mismatch
  | negativeSize .. | entryCount .. | unevenRows | summandSizes | additionSizes | productSizes ..
  | augmentedRows | inverseOfNonSquare => .dimension
  | singular => .singular
  | zeroDenominator _ | reciprocalOfZero => .zeroDivision
  | invalidName _ | wrongKind .. => .unknownVariable
  | unknownFunction _ => .unknownFunction
  | argumentCount .. | argumentKinds .. => .signature
  | fractionalSize | sizeBelowZero => .invalidArgument
  | cancelled => .cancelled

/-- A line of input and a column of it, counted from one. -/
structure Context where
  source : String
  column : Int
  deriving DecidableEq, Repr

namespace Context

/-- The line, and below it a marker under the column. -/
def format (context : Context) : String :=
  let indent := String.ofList (List.replicate (context.column - 1).toNat ' ')
  context.source ++ "\n" ++ indent ++ "^^^"

end Context

/-- A message below the place in the line that it is about, if there is one. -/
def messageIn (context : Option Context) (message : String) : String :=
  match context with
  | none => message
  | some place => place.format ++ "\n" ++ message

/-- Something about the input that the user is told. -/
structure Report where
  cause : Cause
  context : Option Context
  deriving DecidableEq, Repr

namespace Report

/-- The wording of a report, without the place in the line. -/
def message (report : Report) : String :=
  report.cause.message

/-- The wording of a report, with the place in the line. -/
def text (report : Report) : String :=
  messageIn report.context report.message

end Report

/-- What ends a computation without a report. -/
inductive Fault where
  /-- An integer with more digits than the limit was to be written. -/
  | tooLongToWrite
  /-- This many digits, more than the limit, were to be read as an integer. -/
  | tooLongToRead (digits : Nat)
  /-- The text is no integer. -/
  | notInteger (text : String)
  /-- The text is neither an integer nor a fraction. -/
  | notFraction (text : String)
  /-- The fraction, given by its text, is not whole. -/
  | notWhole (text : String)
  /-- A row or column of a matrix that is not there. -/
  | outside (row col : Int) (rows cols : Nat)
  /-- A matrix of more entries than can be counted was to be laid out. -/
  | tooManyEntries
  | notScalar
  | notMatrix
  /-- A variable token without characters. -/
  | emptyName
  /-- A reference to a variable that has no name. -/
  | missingName
  /-- A number below zero as an operand. -/
  | negativeLiteral
  /-- An operator between types of operand that it does not join. -/
  | unsupported (operator left right : String)
  /-- A text joined by `+` to something else. -/
  | notConcatenable (right : String)
  /-- A text multiplied by something that does not count. -/
  | notRepeatable (other : String)
  /-- A sign before a type of operand that has no opposite. -/
  | notSigned (operand : String)
  /-- An operation asked of a type of operand that does not have it. -/
  | noOperation (operand operation : String)
  /-- A plain integer divided by the plain integer zero. -/
  | integerOverZero
  deriving DecidableEq, Repr

namespace Fault

/-- The advice at the end of both messages on the digit limit. -/
def limitAdvice : String :=
  "; use sys.set_int_max_str_digits() to increase the limit"

/-- The most characters of a refused text that a message quotes. -/
def quotedLength : Nat := 200

/-- The wording of a fault. -/
def message : Fault → String
  | tooLongToWrite =>
      s!"Exceeds the limit ({Numeral.digitLimit} digits) for integer string conversion"
        ++ limitAdvice
  | tooLongToRead digits =>
      s!"Exceeds the limit ({Numeral.digitLimit} digits) for integer string conversion: "
        ++ s!"value has {digits} digits" ++ limitAdvice
  | notInteger text =>
      "invalid literal for int() with base 10: "
        ++ String.ofList ((Text.quote text).toList.take quotedLength)
  | notFraction text => "invalid fraction: " ++ Text.quote text
  | notWhole text => text ++ " is not an integer"
  | outside row col rows cols => s!"({row}, {col}) is outside a {rows}x{cols} matrix"
  | tooManyEntries => "cannot fit 'int' into an index-sized integer"
  | notScalar => "value is a matrix, not a scalar"
  | notMatrix => "value is a scalar, not a matrix"
  | emptyName => "string index out of range"
  | missingName => "object of type 'NoneType' has no len()"
  | negativeLiteral => "a literal is never negative"
  | unsupported operator left right =>
      s!"unsupported operand type(s) for {operator}: '{left}' and '{right}'"
  | notConcatenable right =>
      "can only concatenate str (not " ++ String.singleton Text.doubleQuote ++ right
        ++ String.singleton Text.doubleQuote ++ ") to str"
  | notRepeatable other => s!"can't multiply sequence by non-int of type '{other}'"
  | notSigned operand => s!"bad operand type for unary -: '{operand}'"
  | noOperation operand operation => s!"'{operand}' object has no attribute '{operation}'"
  | integerOverZero => "division by zero"

/-- The name of the class of a fault. -/
def className : Fault → String
  | tooLongToWrite | tooLongToRead _ | notInteger _ | notFraction _ | notWhole _ => "ValueError"
  | outside .. | emptyName => "IndexError"
  | tooManyEntries => "OverflowError"
  | notScalar | notMatrix | missingName | unsupported .. | notConcatenable _ | notRepeatable _
  | notSigned _ => "TypeError"
  | negativeLiteral => "ValidationError"
  | noOperation .. => "AttributeError"
  | integerOverZero => "ZeroDivisionError"

end Fault

/-- What a computation fails with. -/
inductive Failure where
  | report (report : Report)
  | fault (fault : Fault)
  deriving DecidableEq, Repr

namespace Failure

/-- A report that points to no place in a line. There is none if a number in its wording is too
long to be written. -/
def because (cause : Cause) : Failure :=
  if cause.numbers.all Numeral.fits then .report ⟨cause, none⟩ else .fault .tooLongToWrite

/-- The wording of a failure, with the place in the line if it has one. -/
def text : Failure → String
  | .report shown => shown.text
  | .fault raised => raised.message

/-- The name of the class of a failure. -/
def className : Failure → String
  | .report shown => shown.cause.reportClass.name
  | .fault raised => raised.className

end Failure

end MatrixCalc
