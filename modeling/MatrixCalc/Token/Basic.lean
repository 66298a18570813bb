/-!
# Tokens

The words of the expression language: their kinds, and a token as it stands in a line.
-/

namespace MatrixCalc

/-- The kinds of token. -/
inductive TokenKind where
  /-- The end of the input. -/
  | endOfInput
  | plus
  | minus
  | times
  | divide
  /-- `->`, before the variable that takes the result. -/
  | arrow
  | comma
  | leftParen
  | rightParen
  | number
  /-- A function name: two or more letters. -/
  | function
  /-- `A`: a matrix variable. -/
  | matrix
  /-- `a`: a scalar variable. -/
  | scalar
  /-- `$A`: a matrix variable that is to be defined first. -/
  | defineMatrix
  /-- `$a`: a scalar variable that is to be defined first. -/
  | defineScalar
  /-- `$$`: a matrix without a name that is to be entered. -/
  | defineAnonymous
  deriving DecidableEq, Repr

namespace TokenKind

/-- The name of a kind of token in messages. -/
def name : TokenKind → String
  | .endOfInput => "EOF"
  | .plus => "plus"
  | .minus => "minus"
  | .times => "mult"
  | .divide => "div"
  | .arrow => "arrow"
  | .comma => "comma"
  | .leftParen => "lparen"
  | .rightParen => "rparen"
  | .number => "num"
  | .function => "func"
  | .matrix => "mvar"
  | .scalar => "svar"
  | .defineMatrix => "dmvar"
  | .defineScalar => "dsvar"
  | .defineAnonymous => "damvar"

/-- Every kind of token. -/
def all : List TokenKind :=
  [.endOfInput, .plus, .minus, .times, .divide, .arrow, .comma, .leftParen, .rightParen, .number,
   .function, .matrix, .scalar, .defineMatrix, .defineScalar, .defineAnonymous]

/-- The kind of token with a given name. -/
def ofName? (name : String) : Option TokenKind :=
  all.find? fun kind => kind.name = name

end TokenKind

/-- A token: its kind, the characters it was written with, and the number of characters before
it in the line. -/
structure Token where
  kind : TokenKind
  text : String
  pos : Int
  deriving DecidableEq, Repr

end MatrixCalc
