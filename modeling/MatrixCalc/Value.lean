import MatrixCalc.RatMatrix.Text

/-!
# Values

What an expression evaluates to: a scalar or a matrix.
-/

namespace MatrixCalc

/-- A scalar or a matrix. -/
inductive Value where
  | scalar (value : Fraction)
  | matrix (value : RatMatrix)
  deriving DecidableEq

namespace Value

/-- The kind of a value. -/
def kind : Value → Kind
  | scalar _ => .scalar
  | matrix _ => .matrix

/-- The fraction of a scalar. -/
def asScalar : Value → Except Failure Fraction
  | scalar value => .ok value
  | matrix _ => .error (.fault .notScalar)

/-- The matrix of a matrix value. -/
def asMatrix : Value → Except Failure RatMatrix
  | scalar _ => .error (.fault .notMatrix)
  | matrix value => .ok value

/-- The value as it is stored, on one line. -/
def write : Value → Except Failure String
  | scalar value => value.write
  | matrix value => value.write

/-- The value as it is shown: a fraction in lowest terms, or a box. -/
def render : Value → Except Failure String
  | scalar value => value.reduce.write
  | matrix value => value.render

end Value

end MatrixCalc
