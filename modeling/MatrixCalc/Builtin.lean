import MatrixCalc.Value

/-!
# Built-in functions

The functions of the language. Each takes a fixed number of arguments of fixed kinds; a call is
checked against these before it is carried out.
-/

namespace MatrixCalc

/-- The functions of the language, sorted by name. -/
inductive Builtin where
  | augment
  | identity
  | invert
  | ref
  | rref
  | transpose
  deriving DecidableEq, Repr

namespace Builtin

/-- Every function, sorted by name. -/
def all : List Builtin :=
  [augment, identity, invert, ref, rref, transpose]

/-- The name by which a function is called. -/
def name : Builtin → String
  | augment => "augment"
  | identity => "identity"
  | invert => "invert"
  | ref => "ref"
  | rref => "rref"
  | transpose => "transpose"

/-- The names and kinds of the arguments. -/
def parameters : Builtin → List (String × Kind)
  | augment => [("a", .matrix), ("b", .matrix)]
  | identity => [("size", .scalar)]
  | invert | ref | rref | transpose => [("mat", .matrix)]

/-- The kinds of the arguments. -/
def signature (builtin : Builtin) : List Kind :=
  builtin.parameters.map Prod.snd

/-- What a function does, in one sentence. -/
def summary : Builtin → String
  | augment => "The columns of a followed by the columns of b; row counts must match."
  | identity => "The size x size identity matrix."
  | invert => "Inverse of a square matrix, or an error if none exists."
  | ref => "Row echelon form by Gaussian elimination."
  | rref => "Reduced row echelon form by Gauss-Jordan elimination."
  | transpose => "Rows become columns."

/-- How a function is called. -/
def usage (builtin : Builtin) : String :=
  let shown := builtin.parameters.map fun parameter => parameter.1 ++ ": " ++ parameter.2.name
  builtin.name ++ "(" ++ String.intercalate ", " shown ++ ")"

/-- The function with a name. -/
def find (name : String) : Except Failure Builtin :=
  match all.find? fun builtin => builtin.name = name with
  | some builtin => .ok builtin
  | none => .error (Failure.because (.unknownFunction name))

/-- Checks the number of arguments, then their kinds. -/
def check (builtin : Builtin) (arguments : List Value) : Except Failure Unit :=
  let kinds := arguments.map Value.kind
  if kinds.length ≠ builtin.signature.length then
    .error (Failure.because
      (.argumentCount builtin.name builtin.signature.length kinds.length))
  else if kinds ≠ builtin.signature then
    .error (Failure.because (.argumentKinds builtin.name builtin.signature kinds))
  else .ok ()

/-- The identity matrix whose size is the value of a fraction. -/
def identityOf (size : Fraction) : Except Failure RatMatrix :=
  if !size.isWhole then .error (Failure.because .fractionalSize)
  else
    let whole := size.num / size.den
    if whole < 0 then .error (Failure.because .sizeBelowZero)
    else .ok (.identity whole.toNat)

/-- What a function computes from arguments that were checked. -/
def apply : Builtin → List Value → Except Failure RatMatrix
  | augment, [.matrix a, .matrix b] => a.augment b
  | identity, [.scalar size] => identityOf size
  | invert, [.matrix m] => m.inverse
  | ref, [.matrix m] => .ok m.ref
  | rref, [.matrix m] => .ok m.rref
  | transpose, [.matrix m] => .ok m.transpose
  | builtin, arguments =>
      .error (Failure.because
        (.argumentKinds builtin.name builtin.signature (arguments.map Value.kind)))

/-- Checks the arguments of a call and carries it out. -/
def call (builtin : Builtin) (arguments : List Value) : Except Failure Value := do
  builtin.check arguments
  let result ← builtin.apply arguments
  .ok (.matrix result)

end Builtin

end MatrixCalc
