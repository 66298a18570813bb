import MatrixCalc.Value

/-!
# Variable slots

A session has 52 variables: the matrices `A` to `Z` and the scalars `a` to `z`. Every slot always
holds a value; at the start the matrices are zero matrices of a default size and the scalars are
zero. Scalars are stored in lowest terms, matrices as they are. The last matrix that was computed
is in `Z` and the last scalar in `z`. `Slots.get` is the view of the contents: `get_setMatrix` and
`get_setScalar` say what a write changes and that it leaves the other slots alone.
-/

namespace MatrixCalc

/-- The letters of one alphabet, counted from zero. -/
abbrev Letter := Fin 26

/-- One of the 52 variables. -/
inductive Slot where
  | matrix (letter : Letter)
  | scalar (letter : Letter)
  deriving DecidableEq, Repr

namespace Slot

/-- The kind of value that a variable holds. -/
def kind : Slot → Kind
  | matrix _ => .matrix
  | scalar _ => .scalar

/-- The letter that a variable is named by. -/
def char : Slot → Char
  | matrix letter => Char.ofNat ('A'.toNat + letter)
  | scalar letter => Char.ofNat ('a'.toNat + letter)

/-- The name of a variable. -/
def name (slot : Slot) : String :=
  String.singleton slot.char

/-- The variable named by a letter. -/
def ofChar? (char : Char) : Option Slot :=
  if h : 'A'.toNat ≤ char.toNat ∧ char.toNat < 'A'.toNat + 26 then
    some (.matrix ⟨char.toNat - 'A'.toNat, by omega⟩)
  else if h : 'a'.toNat ≤ char.toNat ∧ char.toNat < 'a'.toNat + 26 then
    some (.scalar ⟨char.toNat - 'a'.toNat, by omega⟩)
  else none

/-- The variable with a name. -/
def ofName? (name : String) : Option Slot :=
  match name.toList with
  | [char] => ofChar? char
  | _ => none

/-- The matrix variables `A` to `Z`. -/
def matrices : List Slot :=
  (List.finRange 26).map .matrix

/-- The scalar variables `a` to `z`. -/
def scalars : List Slot :=
  (List.finRange 26).map .scalar

/-- `Z` and `z`, which take the result of every evaluation. -/
def lastMatrix : Slot := .matrix 25

@[inherit_doc lastMatrix]
def lastScalar : Slot := .scalar 25

/-- The variable with a name. -/
def find (name : String) : Except Failure Slot :=
  match ofName? name with
  | some slot => .ok slot
  | none => .error (Failure.because (.invalidName name))

/-- The letter of the matrix variable with a name. -/
def findMatrix (name : String) : Except Failure Letter :=
  match find name with
  | .ok (.matrix letter) => .ok letter
  | .ok (.scalar _) => .error (Failure.because (.wrongKind name .matrix))
  | .error failure => .error failure

/-- The letter of the scalar variable with a name. -/
def findScalar (name : String) : Except Failure Letter :=
  match find name with
  | .ok (.scalar letter) => .ok letter
  | .ok (.matrix _) => .error (Failure.because (.wrongKind name .scalar))
  | .error failure => .error failure

end Slot

/-- The contents of the 52 variables, and the size of a matrix that was never set. -/
structure Slots where
  defaultRows : Nat
  defaultCols : Nat
  matrices : Vector RatMatrix 26
  scalars : Vector Fraction 26

namespace Slots

/-- The contents at the start of a session. -/
def fresh (rows cols : Nat) : Slots :=
  ⟨rows, cols, Vector.replicate 26 (.zeros rows cols), Vector.replicate 26 0⟩

/-- The contents at the start, for a default size that may be invalid. -/
def freshOfSize (rows cols : Int) : Except Failure Slots :=
  RatMatrix.withSize rows cols fun rows cols => .ok (fresh rows cols)

/-- All variables at their defaults. -/
def reset (slots : Slots) : Slots :=
  fresh slots.defaultRows slots.defaultCols

/-- The value in a slot. -/
def get (slots : Slots) : Slot → Value
  | .matrix letter => .matrix slots.matrices[letter]
  | .scalar letter => .scalar slots.scalars[letter]

/-- Stores a matrix. -/
def setMatrix (slots : Slots) (letter : Letter) (value : RatMatrix) : Slots :=
  { slots with matrices := slots.matrices.set letter value }

/-- Stores a scalar, in lowest terms. -/
def setScalar (slots : Slots) (letter : Letter) (value : Fraction) : Slots :=
  { slots with scalars := slots.scalars.set letter value.reduce }

/-- Storing a matrix changes its slot and no other. -/
theorem get_setMatrix (slots : Slots) (letter : Letter) (value : RatMatrix) (slot : Slot) :
    (slots.setMatrix letter value).get slot =
      if slot = .matrix letter then .matrix value else slots.get slot := by
  cases slot with
  | scalar other => rfl
  | matrix other =>
    by_cases h : other = letter
    · subst h
      simp [get, setMatrix]
    · have hne : letter.val ≠ other.val := fun heq => h (Fin.ext heq.symm)
      simp [get, setMatrix, h, hne]

/-- Storing a scalar changes its slot and no other. -/
theorem get_setScalar (slots : Slots) (letter : Letter) (value : Fraction) (slot : Slot) :
    (slots.setScalar letter value).get slot =
      if slot = .scalar letter then .scalar value.reduce else slots.get slot := by
  cases slot with
  | matrix other => rfl
  | scalar other =>
    by_cases h : other = letter
    · subst h
      simp [get, setScalar]
    · have hne : letter.val ≠ other.val := fun heq => h (Fin.ext heq.symm)
      simp [get, setScalar, h, hne]

/-- The matrix in the slot with a name. -/
def getMatrixNamed (slots : Slots) (name : String) : Except Failure RatMatrix := do
  let letter ← Slot.findMatrix name
  .ok slots.matrices[letter]

/-- The scalar in the slot with a name. -/
def getScalarNamed (slots : Slots) (name : String) : Except Failure Fraction := do
  let letter ← Slot.findScalar name
  .ok slots.scalars[letter]

/-- Stores a value in the slot with a name. -/
def setNamed (slots : Slots) (name : String) : Value → Except Failure Slots
  | .matrix value => (Slot.findMatrix name).map fun letter => slots.setMatrix letter value
  | .scalar value => (Slot.findScalar name).map fun letter => slots.setScalar letter value

/-- Stores a value as the last result of its kind. -/
def setLast (slots : Slots) : Value → Slots
  | .matrix value => slots.setMatrix 25 value
  | .scalar value => slots.setScalar 25 value

/-- Whether a slot holds something else than its default. -/
def isModified (slots : Slots) : Slot → Bool
  | .matrix letter =>
      !slots.matrices[letter].same (.zeros slots.defaultRows slots.defaultCols)
  | .scalar letter => !slots.scalars[letter].isZero

/-- The slots that hold something else than their defaults, matrices first. -/
def modified (slots : Slots) : List Slot :=
  (Slot.matrices ++ Slot.scalars).filter slots.isModified

end Slots

end MatrixCalc
