import MatrixCalc.Fraction.Text
import MatrixCalc.Grid.Echelon

/-!
# Matrices

A matrix is a size and a grid of fractions of that size; it may have no rows or no columns. The
operations check sizes and refuse what does not fit together.
-/

namespace MatrixCalc

/-- A matrix of fractions of any size. -/
structure RatMatrix where
  rows : Nat
  cols : Nat
  grid : Grid rows cols
  deriving DecidableEq

/-- An entry as it is given: a fraction, an integer, or a text to be read. -/
inductive GivenEntry where
  | fraction (value : Fraction)
  | integer (value : Int)
  | text (value : String)
  deriving DecidableEq

/-- The fraction that a given entry stands for. -/
def GivenEntry.read : GivenEntry → Except Failure Fraction
  | fraction value => .ok value
  | integer value => .ok (.ofInt value)
  | text value => Fraction.parse value

namespace RatMatrix

/-- A matrix from its entries, row after row. -/
def ofList (rows cols : Nat) (entries : List Fraction) : Except Failure RatMatrix :=
  if h : entries.length = rows * cols then
    .ok ⟨rows, cols, ⟨⟨entries.toArray, by simpa using h⟩⟩⟩
  else .error (Failure.because (.entryCount rows cols entries.length))

/-- Continues with a number of rows and of columns, neither of them below zero. -/
def withSize {α : Type} (rows cols : Int) (use : Nat → Nat → Except Failure α) :
    Except Failure α :=
  if rows < 0 || cols < 0 then .error (Failure.because (.negativeSize rows cols))
  else use rows.toNat cols.toNat

/-- A matrix from a size, which may be invalid, and its entries. -/
def ofEntries (rows cols : Int) (entries : List Fraction) : Except Failure RatMatrix :=
  withSize rows cols fun rows cols => ofList rows cols entries

/-- The matrix of zeros. -/
def zeros (rows cols : Nat) : RatMatrix :=
  ⟨rows, cols, .zeros rows cols⟩

instance : Inhabited RatMatrix := ⟨zeros 0 0⟩

/-- The matrix of zeros of a size, which may be invalid. -/
def zerosOfSize (rows cols : Int) : Except Failure RatMatrix :=
  withSize rows cols fun rows cols => .ok (zeros rows cols)

/-- The identity matrix. -/
def identity (size : Nat) : RatMatrix :=
  ⟨size, size, .identity size⟩

/-- The identity matrix of a size, which may be invalid. -/
def identityOfSize (size : Int) : Except Failure RatMatrix :=
  withSize size size fun size _ => .ok (identity size)

/-- A matrix from its rows. They must be of one length, which is checked before any entry is
read. -/
def ofRows (rows : List (List GivenEntry)) : Except Failure RatMatrix :=
  match rows with
  | [] => .ok (zeros 0 0)
  | first :: _ =>
      if rows.all fun row => row.length = first.length then do
        let entries ← rows.flatten.mapM GivenEntry.read
        ofList rows.length first.length entries
      else .error (Failure.because .unevenRows)

/-- The entries, row after row. -/
def toList (m : RatMatrix) : List Fraction :=
  m.grid.toList

/-- The rows, from top to bottom. -/
def toRows (m : RatMatrix) : List (List Fraction) :=
  m.grid.toRows

/-- Whether two matrices have the same size and entries of the same values. -/
def same (a b : RatMatrix) : Bool :=
  a.rows = b.rows && a.cols = b.cols &&
    (a.toList.zip b.toList).all fun pair => decide (pair.1.Equiv pair.2)

/-- Whether every entry is zero. -/
def isZero (m : RatMatrix) : Bool :=
  m.toList.all Fraction.isZero

/-- Whether there are as many rows as columns. -/
def isSquare (m : RatMatrix) : Bool :=
  m.rows = m.cols

/-- Every entry in lowest terms. -/
def reduce (m : RatMatrix) : RatMatrix :=
  ⟨m.rows, m.cols, m.grid.map Fraction.reduce⟩

/-- Row echelon form. -/
def ref (m : RatMatrix) : RatMatrix :=
  ⟨m.rows, m.cols, m.grid.ref⟩

/-- Reduced row echelon form. -/
def rref (m : RatMatrix) : RatMatrix :=
  ⟨m.rows, m.cols, m.grid.rref⟩

/-- The rows as columns. -/
def transpose (m : RatMatrix) : RatMatrix :=
  ⟨m.cols, m.rows, m.grid.transpose⟩

/-- Every entry multiplied by a fraction, in lowest terms. -/
def scale (factor : Fraction) (m : RatMatrix) : RatMatrix :=
  ⟨m.rows, m.cols, m.grid.scale factor⟩

/-- Every entry negated, in lowest terms. -/
def negate (m : RatMatrix) : RatMatrix :=
  ⟨m.rows, m.cols, m.grid.negate⟩

/-- A grid under equal numbers of rows and columns. -/
def castGrid {rows cols rows' cols' : Nat} (hrows : rows = rows') (hcols : cols = cols')
    (grid : Grid rows cols) : Grid rows' cols' :=
  .ofFn fun row col => grid.entry (row.cast hrows.symm) (col.cast hcols.symm)

/-- The entrywise sum of two matrices of one size. -/
def add (a b : RatMatrix) : Except Failure RatMatrix :=
  if h : a.rows = b.rows ∧ a.cols = b.cols then
    .ok ⟨a.rows, a.cols, a.grid.add (castGrid h.1.symm h.2.symm b.grid)⟩
  else .error (Failure.because .additionSizes)

/-- The matrix product. -/
def multiply (a b : RatMatrix) : Except Failure RatMatrix :=
  if h : a.cols = b.rows then
    .ok ⟨a.rows, b.cols, a.grid.multiply (castGrid h.symm rfl b.grid)⟩
  else .error (Failure.because (.productSizes a.rows a.cols b.rows b.cols))

/-- The columns of one matrix followed by those of another with as many rows. -/
def augment (a b : RatMatrix) : Except Failure RatMatrix :=
  if h : a.rows = b.rows then
    .ok ⟨a.rows, a.cols + b.cols, a.grid.augment (castGrid h.symm rfl b.grid)⟩
  else .error (Failure.because .augmentedRows)

/-- The inverse of a square matrix. -/
def inverse (m : RatMatrix) : Except Failure RatMatrix :=
  if h : m.rows = m.cols then
    match (castGrid rfl h.symm m.grid).inverse? with
    | some grid => .ok ⟨m.rows, m.rows, grid⟩
    | none => .error (Failure.because .singular)
  else .error (Failure.because .inverseOfNonSquare)

end RatMatrix

end MatrixCalc
