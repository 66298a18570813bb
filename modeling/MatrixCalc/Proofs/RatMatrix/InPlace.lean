import MatrixCalc.Proofs.Echelon.RowEquivalence
import MatrixCalc.Proofs.Grid.Value
import MatrixCalc.Proofs.Numeral
import MatrixCalc.Proofs.RatMatrix.Numbered

/-!
# Row operations in place

The programs below write a matrix over, column after column, and what they have written stays
written if they fail. Every row they are given is looked up in the first column before anything is
written, so that a row that is not there is noticed in time (`eachColumn_of_error`). A step looks up
entries of its own column only, where no step before it has written (`forM_rewrites`). So a program
does what the operation does that makes a new matrix, or nothing (`IsAtomic`), and what it does is
to multiply the matrix from the left: `row_operations_exact`.
-/

namespace MatrixCalc

open MatrixCalc.RatMatrix (number)

namespace RatMatrix

/-! ## Rows that are not there -/

/-- There is a row with the number. -/
def HasRow (m : RatMatrix) (row : Int) : Prop :=
  1 ≤ row ∧ row ≤ m.rows

instance (m : RatMatrix) (row : Int) : Decidable (m.HasRow row) :=
  inferInstanceAs (Decidable (_ ∧ _))

/-- The first of the given rows that is not there. -/
def firstMissing? (m : RatMatrix) (given : List Int) : Option Int :=
  given.find? fun row => ¬ m.HasRow row

section Missing

variable {m : RatMatrix} {row first second missing : Int} {given : List Int}

/-- The rows of a matrix are those with a number. -/
theorem hasRow_iff : m.HasRow row ↔ ∃ index : Fin m.rows, number index = row := by
  constructor
  · rintro ⟨hfirst, hlast⟩
    refine ⟨⟨(row - 1).toNat, by omega⟩, ?_⟩
    simp only [number]
    omega
  · rintro ⟨index, rfl⟩
    simp only [HasRow, number]
    omega

/-- No given row is missing exactly if all of them are there. -/
theorem firstMissing?_eq_none : m.firstMissing? given = none ↔ ∀ row ∈ given, m.HasRow row := by
  simp [firstMissing?]

/-- Of one row that is given this one is missing, or none. -/
theorem firstMissing?_eq_some_iff_singleton :
    m.firstMissing? [row] = some missing ↔ ¬ m.HasRow row ∧ row = missing := by
  simp [firstMissing?]

/-- The first missing row is one of those that are given. -/
theorem mem_of_firstMissing? (h : m.firstMissing? given = some missing) : missing ∈ given :=
  List.mem_of_find?_eq_some h

/-- The first missing row is not there. -/
theorem not_hasRow_of_firstMissing? (h : m.firstMissing? given = some missing) :
    ¬ m.HasRow missing := by
  unfold firstMissing? at h
  simpa using List.find?_some h

/-- Looking up a row that is not there fails with its first column. -/
theorem locateRow_missing (h : ¬ m.HasRow row) : m.locateRow row = .error (m.outside row 1) :=
  dif_neg h

/-- The first of two rows that is not there is the second one only if the first one is there. -/
theorem firstMissing?_pair (h : m.firstMissing? [first, second] = some missing) :
    (¬ m.HasRow first ∧ first = missing) ∨
      (m.HasRow first ∧ ¬ m.HasRow second ∧ second = missing) := by
  by_cases hfirst : m.HasRow first
  · simpa [firstMissing?, hfirst] using h
  · simpa [firstMissing?, hfirst] using h

/-- An operation on some rows has nothing to do, or one of the rows is missing, or all are there. -/
inductive RowsCase (m : RatMatrix) (given : List Int) (idle : Prop) : Prop
  | idle (h : m.cols = 0 ∨ idle)
  | missing (row : Int) (hcols : 0 < m.cols) (hidle : ¬ idle)
      (h : m.firstMissing? given = some row)
  | present (h : ∀ row ∈ given, m.HasRow row)

/-- Either there is nothing to do, or a row is missing, or all of them are there. -/
theorem rowsCase (m : RatMatrix) (given : List Int) (idle : Prop) : m.RowsCase given idle := by
  by_cases hidle : m.cols = 0 ∨ idle
  · exact .idle hidle
  · obtain ⟨hcols, hidle⟩ := not_or.1 hidle
    cases h : m.firstMissing? given with
    | none => exact .present (firstMissing?_eq_none.1 h)
    | some row => exact .missing row (Nat.pos_of_ne_zero hcols) hidle h

end Missing

end RatMatrix

/-! ## Programs -/

/-- A program that works on a matrix in place. What it has written stays written if it fails. -/
abbrev InPlace := ExceptT Failure (StateM RatMatrix)

namespace InPlace

variable {rows cols : Nat}

/-- An operation in place, done whole or not at all. -/
def whole (operation : RatMatrix → Except Failure RatMatrix) : InPlace Unit := fun m =>
  match operation m with
  | .ok next => (.ok (), next)
  | .error failure => (.error failure, m)

/-- Looks up an entry. -/
def look (row col : Int) : InPlace Fraction := fun m => (m.get row col, m)

/-- Writes an entry. -/
def write (row col : Int) (value : Fraction) : InPlace Unit :=
  whole (·.set row col value)

/-- Takes a step for each column, from left to right. -/
def eachColumn (step : Int → InPlace Unit) : InPlace Unit := do
  let m ← get
  (List.finRange m.cols).forM fun col => step (number col)

/-- Swaps two rows. -/
def swapRows (first second : Int) : InPlace Unit :=
  if first = second then pure ()
  else eachColumn fun col => do
    let upper ← look first col
    let lower ← look second col
    write first col lower
    write second col upper

/-- Multiplies a row by a fraction. -/
def scaleRow (row : Int) (factor : Fraction) : InPlace Unit :=
  eachColumn fun col => do
    let entry ← look row col
    write row col (entry.mul factor).reduce

/-- Adds a multiple of the row `source` to the row `target`. -/
def addScaledRow (source : Int) (factor : Fraction) (target : Int) : InPlace Unit :=
  eachColumn fun col => do
    let entry ← look target col
    let addend ← look source col
    write target col (entry.add (addend.mul factor)).reduce

/-! ## Steps -/

section Steps

variable {α β : Type} {program : InPlace α} {next : α → InPlace β} {m after : RatMatrix}

/-- After a first program that has succeeded, the second runs on the matrix it has left. -/
theorem bind_of_ok {value : α} (h : program m = (.ok value, after)) :
    (program >>= next) m = next value after := by
  simp only [bind, ExceptT.bind, ExceptT.mk, StateT.bind, h, ExceptT.bindCont]

/-- After a first program that has failed, the second does not run. -/
theorem bind_of_error {failure : Failure} (h : program m = (.error failure, after)) :
    (program >>= next) m = (.error failure, after) := by
  simp only [bind, ExceptT.bind, ExceptT.mk, StateT.bind, h, ExceptT.bindCont]
  rfl

/-- A place inside the matrix is read as the entry there. -/
theorem look_number (grid : Grid rows cols) (row : Fin rows) (col : Fin cols) :
    look (number row) (number col) ⟨rows, cols, grid⟩ =
      (.ok (grid.entry row col), ⟨rows, cols, grid⟩) := by
  rw [look, RatMatrix.get_number]

/-- A place inside the matrix is written as the entry there. -/
theorem write_number (grid : Grid rows cols) (row : Fin rows) (col : Fin cols)
    (value : Fraction) :
    write (number row) (number col) value ⟨rows, cols, grid⟩ =
      (.ok (), ⟨rows, cols, grid.set row col value⟩) := by
  simp only [write, whole, RatMatrix.set, RatMatrix.locate_number]
  rfl

end Steps

/-! ## Loops -/

/-- The loop over the columns by their numbers is one over the columns. -/
theorem eachColumn_eq_forM (step : Int → InPlace Unit) (m : RatMatrix) :
    eachColumn step m = (List.finRange m.cols).forM (fun col => step (number col)) m :=
  rfl

/-- Without columns there is nothing to do. -/
theorem eachColumn_empty (step : Int → InPlace Unit) {m : RatMatrix} (h : m.cols = 0) :
    eachColumn step m = (.ok (), m) := by
  obtain ⟨rows, cols, grid⟩ := m
  obtain rfl : cols = 0 := h
  rfl

/-- A failure in the first column comes before anything is written. -/
theorem eachColumn_of_error {step : Int → InPlace Unit} {m : RatMatrix} {failure : Failure}
    (hcols : 0 < m.cols) (h : step 1 m = (.error failure, m)) :
    eachColumn step m = (.error failure, m) := by
  obtain ⟨rows, _ | cols, grid⟩ := m
  · exact absurd hcols (Nat.lt_irrefl 0)
  · rw [eachColumn_eq_forM, List.finRange_succ]
    exact bind_of_error h

/-- A step brings a column from one grid to another and leaves the other columns as they are. -/
def Rewrites (grid target : Grid rows cols) (col : Fin cols) (step : InPlace Unit) : Prop :=
  ∀ work : Grid rows cols, (∀ row, work.entry row col = grid.entry row col) →
    ∃ next : Grid rows cols, step ⟨rows, cols, work⟩ = (.ok (), ⟨rows, cols, next⟩) ∧
      ∀ row other, next.entry row other =
        if other = col then target.entry row col else work.entry row other

/-- Steps for some columns rewrite these, as long as none of them has been written to before. -/
theorem forM_rewrites {grid target : Grid rows cols} {step : Fin cols → InPlace Unit}
    (hstep : ∀ col, Rewrites grid target col (step col)) {columns : List (Fin cols)}
    (hnodup : columns.Nodup) (work : Grid rows cols)
    (hwork : ∀ col ∈ columns, ∀ row, work.entry row col = grid.entry row col) :
    ∃ next : Grid rows cols, columns.forM step ⟨rows, cols, work⟩ =
      (.ok (), ⟨rows, cols, next⟩) ∧
        ∀ row col, next.entry row col =
          if col ∈ columns then target.entry row col else work.entry row col := by
  induction columns generalizing work with
  | nil => exact ⟨work, rfl, fun row col => by simp⟩
  | cons first rest ih =>
    obtain ⟨hfirst, hrest⟩ := List.nodup_cons.1 hnodup
    obtain ⟨middle, hmiddle, hwritten⟩ := hstep first work (hwork first List.mem_cons_self)
    -- the columns ahead are others than the one that has just been written
    have hahead : ∀ col ∈ rest, ∀ row, middle.entry row col = grid.entry row col := by
      intro col hcol row
      have hne : col ≠ first := fun hsame => hfirst (hsame ▸ hcol)
      rw [hwritten, if_neg hne]
      exact hwork col (List.mem_cons_of_mem _ hcol) row
    obtain ⟨next, hnext, hentries⟩ := ih hrest middle hahead
    refine ⟨next, (bind_of_ok hmiddle).trans hnext, fun row col => ?_⟩
    rw [hentries, hwritten]
    by_cases hcol : col ∈ rest
    · simp [hcol]
    · by_cases hsame : col = first
      · simp [hsame]
      · simp [hcol, hsame]

/-- A loop over all columns rewrites the whole grid. -/
theorem eachColumn_eq {grid target : Grid rows cols} {step : Int → InPlace Unit}
    (hstep : ∀ col, Rewrites grid target col (step (number col))) :
    eachColumn step ⟨rows, cols, grid⟩ = (.ok (), ⟨rows, cols, target⟩) := by
  obtain ⟨next, hnext, hentries⟩ := forM_rewrites hstep (List.nodup_finRange cols) grid
    fun _ _ _ => rfl
  have hsame : next = target := by
    ext1 row col
    rw [hentries, if_pos (List.mem_finRange col)]
  rw [eachColumn_eq_forM, hnext, hsame]

/-- A step that writes one entry of a column. -/
theorem Rewrites.of_set {grid target : Grid rows cols} {row : Fin rows} {col : Fin cols}
    {value : Fraction} {step : InPlace Unit}
    (htarget : ∀ place, target.entry place col =
      if place = row then value else grid.entry place col)
    (hstep : ∀ work : Grid rows cols, (∀ row, work.entry row col = grid.entry row col) →
      step ⟨rows, cols, work⟩ = (.ok (), ⟨rows, cols, work.set row col value⟩)) :
    Rewrites grid target col step := by
  intro work hwork
  refine ⟨_, hstep work hwork, fun place other => ?_⟩
  rw [Grid.entry_set]
  by_cases hcol : other = col
  · simp [hcol, htarget, hwork]
  · simp [hcol]

/-! ## Rows that are there -/

section Present

variable (grid : Grid rows cols) (row other : Fin rows) (factor : Fraction)

/-- Two rows that are there are swapped in place as they are in a copy. -/
theorem swapRows_number : swapRows (number row) (number other) ⟨rows, cols, grid⟩ =
    (.ok (), ⟨rows, cols, grid.swapRows row other⟩) := by
  by_cases hrows : row = other
  · rw [swapRows, if_pos (congrArg number hrows), Grid.swapRows, if_pos hrows]
    rfl
  rw [swapRows, if_neg (hrows ∘ RatMatrix.number_inj.1)]
  refine eachColumn_eq fun col work hwork => ?_
  -- both entries are looked up before the first one is written over
  let half := work.set row col (work.entry other col)
  refine ⟨half.set other col (work.entry row col), ?_, fun place col' => ?_⟩
  · rw [bind_of_ok (look_number work row col), bind_of_ok (look_number work other col),
      bind_of_ok (write_number work row col _)]
    exact write_number half other col _
  · rw [Grid.entry_set, Grid.entry_set, Grid.entry_swapRows]
    by_cases hcol : col' = col
    · by_cases hplace : place = other
      · simp [hcol, hplace, hwork, Ne.symm hrows]
      · simp [hcol, hplace, hwork]
    · simp [hcol]

/-- A row that is there is scaled in place as it is in a copy. -/
theorem scaleRow_number : scaleRow (number row) factor ⟨rows, cols, grid⟩ =
    (.ok (), ⟨rows, cols, grid.scaleRow row factor⟩) := by
  refine eachColumn_eq fun col =>
    .of_set (fun place => grid.entry_scaleRow row place factor col) fun work hwork => ?_
  rw [bind_of_ok (look_number work row col), hwork]
  exact write_number work row col _

/-- The two rows may be one, since both entries are looked up before one is written over. -/
theorem addScaledRow_number :
    addScaledRow (number row) factor (number other) ⟨rows, cols, grid⟩ =
      (.ok (), ⟨rows, cols, grid.addScaledRow row factor other⟩) := by
  refine eachColumn_eq fun col =>
    .of_set (fun place => grid.entry_addScaledRow row factor other place col) fun work hwork => ?_
  rw [bind_of_ok (look_number work other col), bind_of_ok (look_number work row col), hwork, hwork]
  exact write_number work other col _

end Present

/-! ## Operations on given rows -/

section Given

variable {m : RatMatrix} {row first second missing : Int} {factor : Fraction}

/-- Looking at a row that is not there fails and changes nothing. -/
theorem look_missing (col : Int) (h : ¬ m.HasRow row) :
    look row col m = (.error (m.outside row col), m) := by
  rw [look, RatMatrix.get, RatMatrix.locate, dif_neg fun hbounds => h hbounds.1]
  rfl

/-- A row that is there has an entry in the first column. -/
theorem look_present (hcols : 0 < m.cols) (h : m.HasRow row) :
    ∃ entry, look row 1 m = (.ok entry, m) := by
  obtain ⟨index, rfl⟩ := RatMatrix.hasRow_iff.1 h
  exact ⟨_, look_number m.grid index ⟨0, hcols⟩⟩

/-- Looking at two rows of which one is not there fails for the first missing one and changes
nothing. -/
theorem look_look_missing {next : Fraction → Fraction → InPlace Unit} (hcols : 0 < m.cols)
    (h : m.firstMissing? [first, second] = some missing) :
    (do
      let upper ← look first 1
      let lower ← look second 1
      next upper lower : InPlace Unit) m = (.error (m.outside missing 1), m) := by
  obtain ⟨hfirst, rfl⟩ | ⟨hfirst, hsecond, rfl⟩ := RatMatrix.firstMissing?_pair h
  · exact bind_of_error (look_missing 1 hfirst)
  · obtain ⟨upper, hupper⟩ := look_present hcols hfirst
    rw [bind_of_ok hupper]
    exact bind_of_error (look_missing 1 hsecond)

/-- Looking up two rows of which one is not there fails for the first missing one. -/
theorem locateRow_locateRow_missing {next : Fin m.rows → Fin m.rows → Except Failure RatMatrix}
    (h : m.firstMissing? [first, second] = some missing) :
    (do
      let upper ← m.locateRow first
      let lower ← m.locateRow second
      next upper lower : Except Failure RatMatrix) = .error (m.outside missing 1) := by
  obtain ⟨hfirst, rfl⟩ | ⟨hfirst, hsecond, rfl⟩ := RatMatrix.firstMissing?_pair h
  · rw [RatMatrix.locateRow_missing hfirst]
    rfl
  · obtain ⟨index, rfl⟩ := RatMatrix.hasRow_iff.1 hfirst
    rw [RatMatrix.locateRow_number, RatMatrix.locateRow_missing hsecond]
    rfl

/-- An operation looks up the given rows in their order, unless there is nothing to do, and a
program does the same in place. -/
structure LooksUp (m : RatMatrix) (given : List Int) (idle : Prop)
    (operation : RatMatrix → Except Failure RatMatrix) (program : InPlace Unit) : Prop where
  of_idle : m.cols = 0 ∨ idle → operation m = .ok m ∧ program m = (.ok (), m)
  of_missing : ∀ row, 0 < m.cols → ¬ idle → m.firstMissing? given = some row →
    operation m = .error (m.outside row 1) ∧ program m = (.error (m.outside row 1), m)
  of_present : (∀ row ∈ given, m.HasRow row) →
    ∃ next, operation m = .ok next ∧ program m = (.ok (), next)

/-- Swapping looks up both rows, unless they are the same. -/
theorem swapRows_looksUp (m : RatMatrix) (first second : Int) :
    LooksUp m [first, second] (first = second) (·.swapRows first second)
      (swapRows first second) := by
  constructor
  case of_idle =>
    intro hidle
    refine ⟨if_pos (by simpa using hidle), ?_⟩
    unfold swapRows
    split
    · rfl
    · next hne => exact eachColumn_empty _ (hidle.resolve_right hne)
  case of_missing =>
    intro row hcols hne h
    constructor
    · refine (if_neg ?_).trans (locateRow_locateRow_missing h)
      simpa using ⟨hcols.ne', hne⟩
    · rw [swapRows, if_neg hne]
      exact eachColumn_of_error hcols (look_look_missing hcols h)
  case of_present =>
    intro h
    simp only [List.forall_mem_cons] at h
    obtain ⟨upper, rfl⟩ := RatMatrix.hasRow_iff.1 h.1
    obtain ⟨lower, rfl⟩ := RatMatrix.hasRow_iff.1 h.2.1
    exact ⟨_, RatMatrix.swapRows_number m.grid upper lower, swapRows_number m.grid upper lower⟩

/-- A row that is not there fails the loop at its first column. -/
theorem scaleRow_missing (hcols : 0 < m.cols) (h : ¬ m.HasRow row) :
    scaleRow row factor m = (.error (m.outside row 1), m) :=
  eachColumn_of_error hcols (bind_of_error (look_missing 1 h))

/-- Scaling looks up its row. -/
theorem scaleRow_looksUp (m : RatMatrix) (row : Int) (factor : Fraction) :
    LooksUp m [row] False (·.scaleRow row factor) (scaleRow row factor) := by
  constructor
  case of_idle =>
    intro hidle
    have hcols := hidle.resolve_right id
    exact ⟨if_pos hcols, eachColumn_empty _ hcols⟩
  case of_missing =>
    intro missing hcols _ h
    obtain ⟨hrow, rfl⟩ := RatMatrix.firstMissing?_eq_some_iff_singleton.1 h
    constructor
    · show RatMatrix.scaleRow m row factor = _
      rw [RatMatrix.scaleRow, if_neg hcols.ne', RatMatrix.locateRow_missing hrow]
      rfl
    · exact scaleRow_missing hcols hrow
  case of_present =>
    intro h
    obtain ⟨index, rfl⟩ := RatMatrix.hasRow_iff.1 (List.forall_mem_cons.1 h).1
    exact ⟨_, RatMatrix.scaleRow_number m.grid index factor, scaleRow_number m.grid index factor⟩

/-- Adding a multiple of a row looks up the row that is changed, and then the other one. -/
theorem addScaledRow_looksUp (m : RatMatrix) (source : Int) (factor : Fraction) (target : Int) :
    LooksUp m [target, source] False (·.addScaledRow source factor target)
      (addScaledRow source factor target) := by
  constructor
  case of_idle =>
    intro hidle
    have hcols := hidle.resolve_right id
    exact ⟨if_pos hcols, eachColumn_empty _ hcols⟩
  case of_missing =>
    intro missing hcols _ h
    exact ⟨(if_neg hcols.ne').trans (locateRow_locateRow_missing h),
      eachColumn_of_error hcols (look_look_missing hcols h)⟩
  case of_present =>
    intro h
    simp only [List.forall_mem_cons] at h
    obtain ⟨targetRow, rfl⟩ := RatMatrix.hasRow_iff.1 h.1
    obtain ⟨sourceRow, rfl⟩ := RatMatrix.hasRow_iff.1 h.2.1
    exact ⟨_, RatMatrix.addScaledRow_number m.grid sourceRow targetRow factor,
      addScaledRow_number m.grid sourceRow targetRow factor⟩

end Given

/-! ## What becomes of an operation in place -/

/-- An operation on the given rows is done in place whole or not at all. It is refused if and only
if there is something to do and one of the rows is missing; then the first of them that is missing
is named, unless a number that is named with it is too long to be written. -/
structure IsAtomic (m : RatMatrix) (given : List Int) (idle : Prop)
    (operation : RatMatrix → Except Failure RatMatrix) (program : InPlace Unit) : Prop where
  whole_eq : program m = whole operation m
  refused_iff : (∃ failure next, program m = (.error failure, next)) ↔
    0 < m.cols ∧ ¬ idle ∧ ∃ row ∈ given, ¬ m.HasRow row
  refused_eq : ∀ failure next, program m = (.error failure, next) →
    next = m ∧ ∃ row, m.firstMissing? given = some row ∧ failure = m.outside row 1
  indexError_iff :
    (∃ failure next, program m = (.error failure, next) ∧ failure.className = "IndexError") ↔
      0 < m.cols ∧ ¬ idle ∧ ∃ row, m.firstMissing? given = some row ∧ m.CanName row 1
  idle_eq : m.cols = 0 ∨ idle → program m = (.ok (), m)

section Atomic

variable {m : RatMatrix} {given : List Int} {idle : Prop}
  {operation : RatMatrix → Except Failure RatMatrix} {program : InPlace Unit}

/-- A program that looks up its rows comes to what the operation on a copy comes to, and leaves the
matrix alone if that fails. -/
theorem LooksUp.whole_eq (h : LooksUp m given idle operation program) :
    program m = whole operation m := by
  cases m.rowsCase given idle with
  | idle hidle =>
    obtain ⟨hoperation, hprogram⟩ := h.of_idle hidle
    rw [hprogram, whole, hoperation]
  | missing row hcols hidle hrow =>
    obtain ⟨hoperation, hprogram⟩ := h.of_missing row hcols hidle hrow
    rw [hprogram, whole, hoperation]
  | present hrows =>
    obtain ⟨next, hoperation, hprogram⟩ := h.of_present hrows
    rw [hprogram, whole, hoperation]

/-- A refused program has something to do, and fails at the first row that is missing. -/
theorem LooksUp.of_error (h : LooksUp m given idle operation program) {failure : Failure}
    {next : RatMatrix} (hfailure : program m = (.error failure, next)) :
    0 < m.cols ∧ ¬ idle ∧ next = m ∧
      ∃ row, m.firstMissing? given = some row ∧ failure = m.outside row 1 := by
  cases m.rowsCase given idle with
  | idle hidle =>
    rw [(h.of_idle hidle).2] at hfailure
    cases hfailure
  | missing row hcols hidle hrow =>
    rw [(h.of_missing row hcols hidle hrow).2] at hfailure
    obtain ⟨herror, hnext⟩ := Prod.mk.inj hfailure
    exact ⟨hcols, hidle, hnext.symm, row, hrow, (Except.error.inj herror).symm⟩
  | present hrows =>
    obtain ⟨other, -, hprogram⟩ := h.of_present hrows
    rw [hprogram] at hfailure
    cases hfailure

/-- A program that has something to do is refused if a row is missing. -/
theorem LooksUp.exists_error (h : LooksUp m given idle operation program) (hcols : 0 < m.cols)
    (hidle : ¬ idle) (hmissing : ∃ row ∈ given, ¬ m.HasRow row) :
    ∃ failure next, program m = (.error failure, next) := by
  obtain ⟨row, hrow, hout⟩ := hmissing
  cases hfound : m.firstMissing? given with
  | none => exact absurd (RatMatrix.firstMissing?_eq_none.1 hfound row hrow) hout
  | some first => exact ⟨_, _, (h.of_missing first hcols hidle hfound).2⟩

/-- A program that looks up its rows is done as a whole or not at all. -/
theorem LooksUp.isAtomic (h : LooksUp m given idle operation program) :
    IsAtomic m given idle operation program := by
  constructor
  case whole_eq => exact h.whole_eq
  case refused_iff =>
    constructor
    · rintro ⟨failure, next, hfailure⟩
      obtain ⟨hcols, hidle, -, row, hrow, -⟩ := h.of_error hfailure
      exact ⟨hcols, hidle, row, RatMatrix.mem_of_firstMissing? hrow,
        RatMatrix.not_hasRow_of_firstMissing? hrow⟩
    · rintro ⟨hcols, hidle, hmissing⟩
      exact h.exists_error hcols hidle hmissing
  case refused_eq =>
    intro failure next hfailure
    exact (h.of_error hfailure).2.2
  case indexError_iff =>
    constructor
    · rintro ⟨failure, next, hfailure, hclass⟩
      obtain ⟨hcols, hidle, -, row, hrow, hout⟩ := h.of_error hfailure
      rw [hout, RatMatrix.className_outside_iff] at hclass
      exact ⟨hcols, hidle, row, hrow, hclass⟩
    · rintro ⟨hcols, hidle, row, hrow, hname⟩
      exact ⟨_, _, (h.of_missing row hcols hidle hrow).2,
        RatMatrix.className_outside_iff.2 hname⟩
  case idle_eq => exact fun hidle => (h.of_idle hidle).2

end Atomic

/-- A program multiplies a matrix from the left, in place. It rewrites one row, in lowest terms, and
leaves the other rows as they are stored. -/
def MultipliesRow (m : RatMatrix) (factor : Matrix (Fin m.rows) (Fin m.rows) ℚ)
    (rewritten : Fin m.rows) (program : InPlace Unit) : Prop :=
  ∃ next : Grid m.rows m.cols, program m = (.ok (), ⟨m.rows, m.cols, next⟩) ∧
    next.values = factor * m.grid.values ∧
    (∀ row ≠ rewritten, ∀ col, next.entry row col = m.grid.entry row col) ∧
    ∀ col, (next.entry rewritten col).IsReduced

/-- Scaling a row multiplies by a diagonal matrix. -/
theorem scaleRow_multiplies (m : RatMatrix) (row : Fin m.rows) (factor : Fraction) :
    MultipliesRow m (Matrix.diagonal (Function.update 1 row factor.toRat)) row
      (scaleRow (number row) factor) := by
  refine ⟨_, scaleRow_number m.grid row factor, ?_, fun other hne col => ?_, fun col => ?_⟩
  · rw [Grid.values_scaleRow, diagonal_mul_eq_updateRow]
  · rw [Grid.entry_scaleRow, if_neg hne]
  · rw [Grid.entry_scaleRow, if_pos rfl]
    exact Fraction.isReduced_reduce _

/-- Adding a multiple of a row multiplies by a transvection, also for a row added to itself. -/
theorem addScaledRow_multiplies (m : RatMatrix) (source target : Fin m.rows) (factor : Fraction) :
    MultipliesRow m (Matrix.transvection target source factor.toRat) target
      (addScaledRow (number source) factor (number target)) := by
  refine ⟨_, addScaledRow_number m.grid source target factor, ?_, fun other hne col => ?_,
    fun col => ?_⟩
  · rw [Grid.values_addScaledRow, transvection_mul_eq_updateRow]
  · rw [Grid.entry_addScaledRow, if_neg hne]
  · rw [Grid.entry_addScaledRow, if_pos rfl]
    exact Fraction.isReduced_reduce _

/-- A multiple of a row is added to the row itself. -/
theorem transvection_self {size : Nat} (row : Fin size) (scalar : ℚ) :
    Matrix.transvection row row scalar = Matrix.diagonal (Function.update 1 row (1 + scalar)) := by
  ext place other
  rw [Matrix.transvection, Matrix.add_apply, Matrix.one_apply, Matrix.diagonal_apply,
    Matrix.single_apply, Function.update_apply, Pi.one_apply]
  grind

/-- Row operations in place are done whole or not at all, and they multiply from the left by the
matrix of a swap, by a diagonal matrix that differs from the identity in one place at most, or by
one that adds a multiple of a row to a row. A row multiplied by a factor and added to itself is
multiplied by one more than the factor. Rows that are not written to stay as they are stored, and
swapped rows are exchanged as they are stored. -/
theorem row_operations_exact (m : RatMatrix) (factor : Fraction) :
    (∀ first second, IsAtomic m [first, second] (first = second) (·.swapRows first second)
      (swapRows first second)) ∧
    (∀ row, IsAtomic m [row] False (·.scaleRow row factor) (scaleRow row factor)) ∧
    (∀ source target, IsAtomic m [target, source] False (·.addScaledRow source factor target)
      (addScaledRow source factor target)) ∧
    (∀ row, m.HasRow row ↔ ∃ index : Fin m.rows, number index = row) ∧
    (∀ row other : Fin m.rows, ∃ next : Grid m.rows m.cols,
      swapRows (number row) (number other) m = (.ok (), ⟨m.rows, m.cols, next⟩) ∧
      next.values = Matrix.swap ℚ row other * m.grid.values ∧
      ∀ place col, next.entry place col = m.grid.entry (Equiv.swap row other place) col) ∧
    (∀ row, MultipliesRow m (Matrix.diagonal (Function.update 1 row factor.toRat)) row
      (scaleRow (number row) factor)) ∧
    (∀ source target, MultipliesRow m (Matrix.transvection target source factor.toRat) target
      (addScaledRow (number source) factor (number target))) ∧
    ∀ row, MultipliesRow m (Matrix.diagonal (Function.update 1 row (1 + factor.toRat))) row
      (addScaledRow (number row) factor (number row)) := by
  refine ⟨fun first second => (swapRows_looksUp m first second).isAtomic,
    fun row => (scaleRow_looksUp m row factor).isAtomic,
    fun source target => (addScaledRow_looksUp m source factor target).isAtomic,
    fun _ => RatMatrix.hasRow_iff, fun row other => ?_, fun row => scaleRow_multiplies m row factor,
    fun source target => addScaledRow_multiplies m source target factor, fun row => ?_⟩
  · refine ⟨_, swapRows_number m.grid row other, ?_, fun place col => ?_⟩
    · rw [Grid.values_swapRows, swap_mul_eq_submatrix]
    · rw [Grid.entry_swapRows, Equiv.swap_apply_def]
      split
      · rfl
      · split <;> rfl
  · rw [← transvection_self]
    exact addScaledRow_multiplies m row row factor

/-- The matrix with the rows `2/4 0/5` and `3 1`. A third row is not there to be scaled, and a row
added to itself is doubled. -/
theorem row_operations_exact_unreduced :
    let m : RatMatrix := ⟨2, 2, ⟨#v[⟨2, 4, by decide⟩, ⟨0, 5, by decide⟩, .ofInt 3, .ofInt 1]⟩⟩
    (∃ failure next, scaleRow 3 (.ofInt 1) m = (.error failure, next) ∧
      failure.className = "IndexError") ∧
      MultipliesRow m (Matrix.diagonal (Function.update 1 0 (1 + (Fraction.ofInt 1).toRat))) 0
        (addScaledRow 1 (.ofInt 1) 1) := by
  intro m
  obtain ⟨-, hscale, -, -, -, -, -, hself⟩ := row_operations_exact m (.ofInt 1)
  have hname : m.CanName 3 1 := by decide +kernel
  exact ⟨(hscale 3).indexError_iff.2 ⟨by decide, id, 3, by decide, hname⟩, hself 0⟩

/-- A row that is missing without a failure that says so: one whose number is too long to be
written, and one of a matrix without rows that has more columns than can be written. -/
theorem scaleRow_unnamed :
    let single : RatMatrix := ⟨1, 1, ⟨#v[.ofInt 1]⟩⟩
    let far : Int := (10 ^ Numeral.digitLimit : Nat)
    let narrow := RatMatrix.zeros 0 (10 ^ Numeral.digitLimit - 1)
    ¬ single.HasRow far ∧ scaleRow far 1 single = (.error (.fault .tooLongToWrite), single) ∧
      ∃ wide, narrow.augment narrow = .ok wide ∧ 0 < wide.cols ∧ ¬ wide.HasRow 1 ∧
        scaleRow 1 1 wide = (.error (.fault .tooLongToWrite), wide) := by
  intro single far narrow
  have hfar : ¬ single.HasRow far := by decide +kernel
  refine ⟨hfar, ?_, _, dif_pos rfl, by decide +kernel, by decide +kernel, ?_⟩
  · rw [scaleRow_missing (by decide) hfar, RatMatrix.outside_of_not_canName (by decide +kernel)]
  · rw [scaleRow_missing (by decide +kernel) (by decide +kernel),
      RatMatrix.outside_of_not_canName (by decide +kernel)]

end InPlace

end MatrixCalc
