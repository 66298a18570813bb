import MatrixCalc.Fraction.Basic

/-!
# Grids of fractions

A `Grid rows cols` holds `rows * cols` fractions, row after row. It is built by `ofFn` from its
entries and read by `entry`, and the two are inverse to each other (`entry_ofFn`, `ofFn_entry`), so
that nothing else depends on the order of storage.
-/

namespace MatrixCalc

/-- A grid of fractions with a fixed number of rows and columns, stored row after row. -/
structure Grid (rows cols : Nat) where
  entries : Vector Fraction (rows * cols)
  deriving DecidableEq

namespace Grid

variable {rows cols : Nat}

/-- The place of an entry in storage. -/
def place (row : Fin rows) (col : Fin cols) : Fin (rows * cols) :=
  ⟨row * cols + col, calc
    row * cols + col < row * cols + cols := Nat.add_lt_add_left col.isLt _
    _ = (row + 1) * cols := (Nat.succ_mul _ _).symm
    _ ≤ rows * cols := Nat.mul_le_mul_right _ row.isLt⟩

/-- The row of a place in storage. -/
def placeRow (index : Fin (rows * cols)) : Fin rows :=
  ⟨index / cols, Nat.div_lt_of_lt_mul (Nat.mul_comm rows cols ▸ index.isLt)⟩

/-- The column of a place in storage. -/
def placeCol (index : Fin (rows * cols)) : Fin cols :=
  ⟨index % cols, Nat.mod_lt _ (Nat.pos_of_ne_zero fun h => by
    have := index.isLt
    simp [h] at this)⟩

@[simp] theorem placeRow_place (row : Fin rows) (col : Fin cols) :
    placeRow (place row col) = row := by
  have := col.isLt
  ext
  simp only [placeRow, place]
  rw [Nat.mul_comm, Nat.mul_add_div (by omega), Nat.div_eq_of_lt this, Nat.add_zero]

@[simp] theorem placeCol_place (row : Fin rows) (col : Fin cols) :
    placeCol (place row col) = col := by
  ext
  simp only [placeCol, place]
  rw [Nat.mul_comm, Nat.mul_add_mod, Nat.mod_eq_of_lt col.isLt]

@[simp] theorem place_placeRow_placeCol (index : Fin (rows * cols)) :
    place (placeRow index) (placeCol index) = index := by
  ext
  simp only [place, placeRow, placeCol]
  rw [Nat.mul_comm, Nat.div_add_mod]

/-- The entry in a row and a column. -/
def entry (grid : Grid rows cols) (row : Fin rows) (col : Fin cols) : Fraction :=
  grid.entries[place row col]

/-- The grid with the given entries. -/
def ofFn (entry : Fin rows → Fin cols → Fraction) : Grid rows cols :=
  ⟨Vector.ofFn fun index => entry (placeRow index) (placeCol index)⟩

@[simp] theorem entry_ofFn (f : Fin rows → Fin cols → Fraction) (row : Fin rows)
    (col : Fin cols) : (ofFn f).entry row col = f row col := by
  simp [entry, ofFn]

@[simp] theorem ofFn_entry (grid : Grid rows cols) : ofFn grid.entry = grid := by
  cases grid with
  | mk entries =>
    simp only [ofFn, entry, place_placeRow_placeCol, mk.injEq]
    ext index hindex
    simp

/-- Grids with the same entries are equal. -/
@[ext] theorem ext {left right : Grid rows cols}
    (h : ∀ row col, left.entry row col = right.entry row col) : left = right := by
  rw [← ofFn_entry left, ← ofFn_entry right]
  exact congrArg ofFn (funext fun row => funext (h row))

/-- The grid of zeros. -/
def zeros (rows cols : Nat) : Grid rows cols :=
  ⟨Vector.replicate (rows * cols) 0⟩

@[simp] theorem entry_zeros (row : Fin rows) (col : Fin cols) :
    (zeros rows cols).entry row col = 0 := by
  simp [entry, zeros]

/-- The grid with ones on the diagonal and zeros elsewhere. -/
def identity (size : Nat) : Grid size size :=
  ofFn fun row col => if row = col then 1 else 0

@[simp] theorem entry_identity {size : Nat} (row col : Fin size) :
    (identity size).entry row col = if row = col then 1 else 0 :=
  entry_ofFn _ _ _

/-- The grid with `f` applied to every entry. -/
def map (f : Fraction → Fraction) (grid : Grid rows cols) : Grid rows cols :=
  ofFn fun row col => f (grid.entry row col)

@[simp] theorem entry_map (f : Fraction → Fraction) (grid : Grid rows cols) (row : Fin rows)
    (col : Fin cols) : (grid.map f).entry row col = f (grid.entry row col) :=
  entry_ofFn _ _ _

/-- The grid with one entry replaced. -/
def set (grid : Grid rows cols) (row : Fin rows) (col : Fin cols) (value : Fraction) :
    Grid rows cols :=
  ofFn fun r c => if r = row ∧ c = col then value else grid.entry r c

@[simp] theorem entry_set (grid : Grid rows cols) (row r : Fin rows) (col c : Fin cols)
    (value : Fraction) :
    (grid.set row col value).entry r c = if r = row ∧ c = col then value else grid.entry r c :=
  entry_ofFn _ _ _

/-- The entries of one row, from left to right. -/
def row (grid : Grid rows cols) (index : Fin rows) : List Fraction :=
  (List.finRange cols).map (grid.entry index)

/-- The rows, from top to bottom. -/
def toRows (grid : Grid rows cols) : List (List Fraction) :=
  (List.finRange rows).map grid.row

/-- The entries, row after row. -/
def toList (grid : Grid rows cols) : List Fraction :=
  grid.entries.toList

/-- The grid whose rows are the columns of the given one. -/
def transpose (grid : Grid rows cols) : Grid cols rows :=
  ofFn fun row col => grid.entry col row

@[simp] theorem entry_transpose (grid : Grid rows cols) (row : Fin cols) (col : Fin rows) :
    grid.transpose.entry row col = grid.entry col row :=
  entry_ofFn _ _ _

/-- The columns of the left grid, followed by the columns of the right one. -/
def augment {leftCols rightCols : Nat} (left : Grid rows leftCols) (right : Grid rows rightCols) :
    Grid rows (leftCols + rightCols) :=
  ofFn fun row col => Fin.addCases (left.entry row) (right.entry row) col

@[simp] theorem entry_augment_castAdd {leftCols rightCols : Nat} (left : Grid rows leftCols)
    (right : Grid rows rightCols) (row : Fin rows) (col : Fin leftCols) :
    (left.augment right).entry row (col.castAdd rightCols) = left.entry row col := by
  simp [augment]

@[simp] theorem entry_augment_natAdd {leftCols rightCols : Nat} (left : Grid rows leftCols)
    (right : Grid rows rightCols) (row : Fin rows) (col : Fin rightCols) :
    (left.augment right).entry row (col.natAdd leftCols) = right.entry row col := by
  simp [augment]

/-- `width` columns from the column with index `first` on. -/
def columns (grid : Grid rows cols) (first width : Nat) (within : first + width ≤ cols) :
    Grid rows width :=
  ofFn fun row col => grid.entry row ⟨first + col, by omega⟩

@[simp] theorem entry_columns (grid : Grid rows cols) (first width : Nat)
    (within : first + width ≤ cols) (row : Fin rows) (col : Fin width) :
    (grid.columns first width within).entry row col = grid.entry row ⟨first + col, by omega⟩ :=
  entry_ofFn _ _ _

/-- The entrywise sum, not reduced. -/
def add (left right : Grid rows cols) : Grid rows cols :=
  ofFn fun row col => (left.entry row col).add (right.entry row col)

@[simp] theorem entry_add (left right : Grid rows cols) (row : Fin rows) (col : Fin cols) :
    (left.add right).entry row col = (left.entry row col).add (right.entry row col) :=
  entry_ofFn _ _ _

/-- Every entry multiplied by a fraction and brought to lowest terms. -/
def scale (factor : Fraction) (grid : Grid rows cols) : Grid rows cols :=
  ofFn fun row col => ((grid.entry row col).mul factor).reduce

@[simp] theorem entry_scale (factor : Fraction) (grid : Grid rows cols) (row : Fin rows)
    (col : Fin cols) :
    (grid.scale factor).entry row col = ((grid.entry row col).mul factor).reduce :=
  entry_ofFn _ _ _

/-- Every entry negated, in lowest terms. -/
def negate (grid : Grid rows cols) : Grid rows cols :=
  scale (.ofInt (-1)) grid

/-- The product of a row and a column: the products of their entries, added from left to right
and not reduced. -/
def dot {inner : Nat} (left : Grid rows inner) (right : Grid inner cols) (row : Fin rows)
    (col : Fin cols) : Fraction :=
  (List.finRange inner).foldl
    (fun total k => total.add ((left.entry row k).mul (right.entry k col)))
    0

/-- The matrix product. -/
def multiply {inner : Nat} (left : Grid rows inner) (right : Grid inner cols) : Grid rows cols :=
  ofFn (dot left right)

@[simp] theorem entry_multiply {inner : Nat} (left : Grid rows inner) (right : Grid inner cols)
    (row : Fin rows) (col : Fin cols) :
    (left.multiply right).entry row col = dot left right row col :=
  entry_ofFn _ _ _

end Grid

end MatrixCalc
