import MatrixCalc.Proofs.Grid.EchelonForm
import MatrixCalc.Proofs.RatMatrix.Numbered
import MatrixCalc.Proofs.RatMatrix.Rows

/-!
# Matrices filled by number

The programs below make a matrix entry by entry: they start with zeros, or with a copy, and write
into places that are found by number, from entries that are found by number. A place outside of a
matrix is a fault. `Fills` says of such a program which places it writes to, and that it writes the
entries of a given grid there. Every program comes to the operation it stands for
(`multiplyByNumber_eq` and so on), so that none of them ever falls outside.
-/

namespace MatrixCalc.RatMatrix

variable {rows cols : Nat}

/-! ## Programs by number -/

/-- `identity` by number. -/
def identityByNumber (size : Nat) : Except Failure RatMatrix :=
  (List.finRange size).foldlM (fun out index => out.set (number index) (number index) 1)
    (zeros size size)

/-- `transpose` by number. -/
def transposeByNumber (m : RatMatrix) : Except Failure RatMatrix :=
  (List.finRange m.rows).foldlM (fun out row => (List.finRange m.cols).foldlM (fun out col => do
    let entry ← m.get (number row) (number col)
    out.set (number col) (number row) entry) out) (zeros m.cols m.rows)

/-- `augment` by number. -/
def augmentByNumber (a b : RatMatrix) : Except Failure RatMatrix :=
  if a.rows = b.rows then
    (List.finRange a.rows).foldlM (fun out row => do
      let half ← (List.finRange a.cols).foldlM (fun out col => do
        let entry ← a.get (number row) (number col)
        out.set (number row) (number col) entry) out
      (List.finRange b.cols).foldlM (fun out col => do
        let entry ← b.get (number row) (number col)
        out.set (number row) (a.cols + number col) entry) half) (zeros a.rows (a.cols + b.cols))
  else .error (Failure.because .augmentedRows)

/-- The product of a row of one matrix and a column of another, by number. -/
def dotByNumber (a b : RatMatrix) (row col : Int) : Except Failure Fraction :=
  (List.finRange a.cols).foldlM (fun total index => do
    let left ← a.get row (number index)
    let right ← b.get (number index) col
    .ok (total.add (left.mul right))) 0

/-- `multiply` by number. -/
def multiplyByNumber (a b : RatMatrix) : Except Failure RatMatrix :=
  if a.cols = b.rows then
    (List.finRange a.rows).foldlM (fun out row => (List.finRange b.cols).foldlM (fun out col => do
      let total ← dotByNumber a b (number row) (number col)
      out.set (number row) (number col) total) out) (zeros a.rows b.cols)
  else .error (Failure.because (.productSizes a.rows a.cols b.rows b.cols))

/-- `scale` by number, row after row of a copy. -/
def scaleByNumber (factor : Fraction) (m : RatMatrix) : Except Failure RatMatrix :=
  (List.finRange m.rows).foldlM (fun out row => out.scaleRow (number row) factor) m

/-- `add` from the lists of entries, which are as long as each other. -/
def addByEntries (a b : RatMatrix) : Except Failure RatMatrix :=
  if a.rows = b.rows ∧ a.cols = b.cols then
    ofList a.rows a.cols (List.zipWith Fraction.add a.toList b.toList)
  else .error (Failure.because .additionSizes)

/-! ## What a program writes -/

/-- A program on matrices of one size that writes the entries of `target` into some places, and
leaves all other entries as they are. -/
def Fills (target : Grid rows cols) (places : Set (Fin rows × Fin cols))
    (program : RatMatrix → Except Failure RatMatrix) : Prop :=
  ∀ grid : Grid rows cols, ∃ filled : Grid rows cols,
    program (mk rows cols grid) = .ok (mk rows cols filled) ∧
      ∀ row col, ((row, col) ∈ places → filled.entry row col = target.entry row col) ∧
        ((row, col) ∉ places → filled.entry row col = grid.entry row col)

namespace Fills

variable {target : Grid rows cols} {places later : Set (Fin rows × Fin cols)}
  {program next : RatMatrix → Except Failure RatMatrix}

/-- Nothing is filled where nothing is written. -/
theorem pure (target : Grid rows cols) : Fills target ∅ .ok :=
  fun grid => ⟨grid, rfl, fun _ _ => ⟨nofun, fun _ => rfl⟩⟩

/-- An entry is written in the place with its numbers. -/
theorem set {row : Fin rows} {col : Fin cols} {rowNumber colNumber : Int}
    (hrow : rowNumber = number row) (hcol : colNumber = number col) :
    Fills target {(row, col)} fun out =>
      out.set rowNumber colNumber (target.entry row col) := by
  intro grid
  refine ⟨grid.set row col (target.entry row col), ?_, fun row' col' => ?_⟩
  · simp only [hrow, hcol, RatMatrix.set, locate_number]
    rfl
  · rw [Grid.entry_set, Set.mem_singleton_iff, Prod.mk.injEq]
    split
    · next hplace =>
      obtain ⟨rfl, rfl⟩ := hplace
      exact ⟨fun _ => rfl, fun hout => absurd ⟨rfl, rfl⟩ hout⟩
    · next hplace => exact ⟨fun hin => absurd hin hplace, fun _ => rfl⟩

/-- One program after another writes to the places of both. -/
theorem bind (h : Fills target places program) (h' : Fills target later next) :
    Fills target (places ∪ later) fun out => program out >>= next := by
  intro grid
  obtain ⟨half, hhalf, hentries⟩ := h grid
  obtain ⟨filled, hfilled, hentries'⟩ := h' half
  refine ⟨filled, ?_, fun row col => ⟨fun hin => ?_, fun hout => ?_⟩⟩
  · simp only [hhalf]
    exact hfilled
  · -- the second program may write over the first, but it writes the same entries
    by_cases hlater : (row, col) ∈ later
    · exact (hentries' row col).1 hlater
    · rw [(hentries' row col).2 hlater]
      exact (hentries row col).1 (hin.resolve_right hlater)
  · rw [(hentries' row col).2 fun hlater => hout (.inr hlater),
      (hentries row col).2 fun hplace => hout (.inl hplace)]

/-- A loop writes to the places of all its steps. -/
theorem foldlM {ι : Type} {step : RatMatrix → ι → Except Failure RatMatrix}
    {places : ι → Set (Fin rows × Fin cols)} {list : List ι}
    (h : ∀ item ∈ list, Fills target (places item) (step · item)) :
    Fills target {place | ∃ item ∈ list, place ∈ places item} fun out => list.foldlM step out := by
  induction list with
  | nil =>
    have hempty : {place | ∃ item ∈ ([] : List ι), place ∈ places item} = ∅ := by simp
    rw [hempty]
    exact Fills.pure target
  | cons item rest ih =>
    obtain ⟨hitem, hrest⟩ := List.forall_mem_cons.1 h
    have hunion : {place | ∃ other ∈ item :: rest, place ∈ places other} =
        places item ∪ {place | ∃ other ∈ rest, place ∈ places other} := by
      ext place
      simp
    rw [hunion]
    simpa only [List.foldlM_cons] using hitem.bind (ih hrest)

/-- The target is reached if it is there already in all places that are not written to. -/
theorem eq_ok (h : Fills target places program) {grid : Grid rows cols}
    (hrest : ∀ row col, (row, col) ∉ places → grid.entry row col = target.entry row col) :
    program (mk rows cols grid) = .ok (mk rows cols target) := by
  obtain ⟨filled, hfilled, hentries⟩ := h grid
  have hsame : filled = target := by
    ext1 row col
    by_cases hplace : (row, col) ∈ places
    · exact (hentries row col).1 hplace
    · rw [(hentries row col).2 hplace, hrest row col hplace]
  rw [hfilled, hsame]

end Fills

/-! ## The operations by number -/

/-- The program for the identity matrix comes to it. -/
theorem identityByNumber_eq (size : Nat) : identityByNumber size = .ok (identity size) := by
  have hstep : ∀ index ∈ List.finRange size, Fills (Grid.identity size) {(index, index)}
      fun out => out.set (number index) (number index) 1 := by
    intro index _
    have hentry : (Grid.identity size).entry index index = 1 := by simp
    exact hentry ▸ Fills.set rfl rfl
  refine (Fills.foldlM hstep).eq_ok fun row col hplace => ?_
  -- what is not on the diagonal stays zero
  have hne : row ≠ col := by
    rintro rfl
    exact hplace ⟨row, List.mem_finRange row, rfl⟩
  rw [Grid.entry_zeros, Grid.entry_identity, if_neg hne]

/-- The program for the transpose comes to it. -/
theorem transposeByNumber_eq (m : RatMatrix) : m.transposeByNumber = .ok m.transpose := by
  obtain ⟨rows, cols, grid⟩ := m
  have hstep : ∀ row ∈ List.finRange rows, ∀ col ∈ List.finRange cols,
      Fills grid.transpose {(col, row)} (fun out => do
        let entry ← (mk rows cols grid).get (number row) (number col)
        out.set (number col) (number row) entry) := by
    intro row _ col _
    simp only [get_number]
    exact grid.entry_transpose col row ▸ Fills.set rfl rfl
  refine (Fills.foldlM fun row hrow => Fills.foldlM (hstep row hrow)).eq_ok
    fun col row hplace => absurd ?_ hplace
  exact ⟨row, List.mem_finRange row, col, List.mem_finRange col, rfl⟩

/-- The program that puts two matrices side by side comes to what `augment` comes to. -/
theorem augmentByNumber_eq (a b : RatMatrix) : a.augmentByNumber b = a.augment b := by
  obtain ⟨rows, cols, left⟩ := a
  obtain ⟨rows', cols', right⟩ := b
  by_cases hrows : rows = rows'
  swap
  · simp only [augmentByNumber, augment, hrows, if_false, dif_neg, not_false_iff]
  subst hrows
  have hleft : ∀ row : Fin rows, ∀ col ∈ List.finRange cols,
      Fills (left.augment right) {(row, col.castAdd cols')} (fun out => do
        let entry ← (mk rows cols left).get (number row) (number col)
        out.set (number row) (number col) entry) := by
    intro row col _
    simp only [get_number]
    exact left.entry_augment_castAdd right row col ▸ Fills.set rfl rfl
  have hright : ∀ row : Fin rows, ∀ col ∈ List.finRange cols',
      Fills (left.augment right) {(row, col.natAdd cols)} (fun out => do
        let entry ← (mk rows cols' right).get (number row) (number col)
        out.set (number row) (cols + number col) entry) := by
    intro row col _
    have hcol : (cols : Int) + number col = number (col.natAdd cols) := by
      simp only [number, Fin.val_natAdd]
      omega
    simp only [get_number]
    exact left.entry_augment_natAdd right row col ▸ Fills.set rfl hcol
  rw [augment_mk, augmentByNumber, if_pos rfl]
  refine (Fills.foldlM fun row _ =>
    (Fills.foldlM (hleft row)).bind (Fills.foldlM (hright row))).eq_ok
      fun row col hplace => absurd ⟨row, List.mem_finRange row, ?_⟩ hplace
  refine col.addCases (fun col => .inl ?_) (fun col => .inr ?_)
  · exact ⟨col, List.mem_finRange col, rfl⟩
  · exact ⟨col, List.mem_finRange col, rfl⟩

/-- The sum over numbers is the entry of the product. -/
theorem dotByNumber_eq {inner : Nat} (left : Grid rows inner) (right : Grid inner cols)
    (row : Fin rows) (col : Fin cols) :
    dotByNumber (mk rows inner left) (mk inner cols right) (number row) (number col) =
      .ok (left.dot right row col) := by
  simp only [dotByNumber, get_number]
  exact List.foldlM_pure

/-- The program for the product comes to what `multiply` comes to. -/
theorem multiplyByNumber_eq (a b : RatMatrix) : a.multiplyByNumber b = a.multiply b := by
  obtain ⟨rows, inner, left⟩ := a
  obtain ⟨inner', cols, right⟩ := b
  by_cases hinner : inner = inner'
  swap
  · simp only [multiplyByNumber, multiply, hinner, if_false, dif_neg, not_false_iff]
  subst hinner
  have hstep : ∀ row ∈ List.finRange rows, ∀ col ∈ List.finRange cols,
      Fills (left.multiply right) {(row, col)} (fun out => do
        let total ← dotByNumber (mk rows inner left) (mk inner cols right) (number row) (number col)
        out.set (number row) (number col) total) := by
    intro row _ col _
    simp only [dotByNumber_eq]
    exact left.entry_multiply right row col ▸ Fills.set rfl rfl
  rw [multiply_mk, multiplyByNumber, if_pos rfl]
  refine (Fills.foldlM fun row hrow => Fills.foldlM (hstep row hrow)).eq_ok
    fun row col hplace => absurd ?_ hplace
  exact ⟨row, List.mem_finRange row, col, List.mem_finRange col, rfl⟩

/-- A grid whose first rows are scaled. -/
def IsScaledUpTo (factor : Fraction) (grid : Grid rows cols) (done : Nat)
    (work : Grid rows cols) : Prop :=
  ∀ row col, work.entry row col =
    if row.val < done then (grid.scale factor).entry row col else grid.entry row col

/-- Scaling the next row scales one row more. -/
theorem IsScaledUpTo.scaleRow {factor : Fraction} {grid work : Grid rows cols} (row : Fin rows)
    (h : IsScaledUpTo factor grid row work) :
    IsScaledUpTo factor grid (row + 1) (work.scaleRow row factor) := by
  intro other col
  rw [Grid.entry_scaleRow]
  by_cases hsame : other = row
  · subst hsame
    rw [if_pos rfl, if_pos (Nat.lt_succ_self _), h, if_neg (Nat.lt_irrefl _), Grid.entry_scale]
  · have hne : other.val ≠ row.val := Fin.val_ne_of_ne hsame
    have hdone : other.val < row.val + 1 ↔ other.val < row.val := by omega
    rw [if_neg hsame, h]
    simp only [hdone]

/-- Scaling row after row scales the grid, since no row is visited twice. -/
theorem foldl_scaleRow (factor : Fraction) (grid : Grid rows cols) :
    (List.finRange rows).foldl (fun work row => work.scaleRow row factor) grid =
      grid.scale factor := by
  have hloop : IsScaledUpTo factor grid rows
      ((List.finRange rows).foldl (fun work row => work.scaleRow row factor) grid) :=
    Grid.foldl_finRange_induction (P := IsScaledUpTo factor grid)
      (fun row col => (if_neg (Nat.not_lt_zero _)).symm) fun row _ h => h.scaleRow row
  ext1 row col
  rw [hloop, if_pos row.isLt]

/-- The program for multiples, row by row, comes to the multiple. -/
theorem scaleByNumber_eq (factor : Fraction) (m : RatMatrix) :
    m.scaleByNumber factor = .ok (m.scale factor) := by
  obtain ⟨rows, cols, grid⟩ := m
  let step (work : Grid rows cols) (row : Fin rows) : Except Failure (Grid rows cols) :=
    .ok (work.scaleRow row factor)
  calc (mk rows cols grid).scaleByNumber factor
    _ = ((List.finRange rows).foldlM step grid).map (mk rows cols) :=
      foldlM_map_eq (mk rows cols) (fun work row => scaleRow_number work row factor) _ grid
    _ = .ok (mk rows cols (grid.scale factor)) := by
      rw [← foldl_scaleRow factor grid]
      exact congrArg (Except.map (mk rows cols)) List.foldlM_pure

/-- The entries of a sum are the sums of the entries, in the order of storage. -/
theorem toList_add (left right : Grid rows cols) :
    (left.add right).toList = List.zipWith Fraction.add left.toList right.toList := by
  refine List.ext_getElem (by simp [Grid.toList]) fun index hindex _ => ?_
  have hlt : index < rows * cols := by simpa [Grid.toList] using hindex
  have hentry := left.entry_add right (Grid.placeRow ⟨index, hlt⟩) (Grid.placeCol ⟨index, hlt⟩)
  simpa [Grid.toList, Grid.entry] using hentry

/-- The program for sums comes to what `add` comes to. -/
theorem addByEntries_eq (a b : RatMatrix) : a.addByEntries b = a.add b := by
  obtain ⟨rows, cols, left⟩ := a
  obtain ⟨rows', cols', right⟩ := b
  by_cases hsizes : rows = rows' ∧ cols = cols'
  · obtain ⟨rfl, rfl⟩ := hsizes
    rw [add_mk, addByEntries, if_pos ⟨rfl, rfl⟩, toList, toList, ← toList_add]
    exact ofList_toList (mk rows cols (left.add right))
  · simp only [addByEntries, add, hsizes, if_false, dif_neg, not_false_iff]

end MatrixCalc.RatMatrix
