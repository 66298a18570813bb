/-!
# Kinds of value

A value is a scalar or a matrix, and so is the variable that can hold it.
-/

namespace MatrixCalc

/-- The two kinds of value. -/
inductive Kind where
  | scalar
  | matrix
  deriving DecidableEq, Repr

/-- The name of a kind in messages and signatures. -/
def Kind.name : Kind → String
  | .scalar => "scalar"
  | .matrix => "matrix"

end MatrixCalc
