import MatrixCalc.Proofs.Numeral
import MatrixCalc.Proofs.RatMatrix.Filling
import Mathlib.Order.Bounds.Defs

/-!
# Cutting and joining columns

Two matrices that stand side by side are cut apart again, and the two parts of a matrix are joined
again, with every entry as it was stored: `columns_cut_join`. Cutting looks up entry after entry by
number (`columnSliceByNumber_eq`), so it fails at the first column that is not there, if there is a
row to look in. It has to lay out the columns before that, and more entries than can be counted are
another failure (`CutExact.refused_eq`).
-/

namespace MatrixCalc.RatMatrix

variable {rows cols width : Nat}

/-! ## Columns by number -/

/-- Copies the entry of a row that stands `first - 1` columns further to the right. -/
def copyByNumber (m : RatMatrix) (first row : Int) (out : RatMatrix) (col : Int) :
    Except Failure RatMatrix := do
  let entry ← m.get row (first + col - 1)
  out.set row col entry

/-- `width` columns from number `first` on, copied entry by entry. -/
def columnsByNumber (m : RatMatrix) (first : Int) (width : Nat) : Except Failure RatMatrix :=
  (List.finRange m.rows).foldlM (fun out row => (List.finRange width).foldlM (fun out col =>
    m.copyByNumber first (number row) out (number col)) out) (zeros m.rows width)

/-- `columnSlice` by number. -/
def columnSliceByNumber (m : RatMatrix) (first last : Int) : Except Failure RatMatrix :=
  if m.HasRoom first last then m.columnsByNumber first (last - first + 1).toNat
  else .error (.fault .tooManyEntries)

/-- An entry is copied if there is one. -/
theorem copyByNumber_number (grid : Grid rows cols) (out : Grid rows width) (row : Fin rows)
    {first : Int} {col : Fin width} {source : Fin cols}
    (hsource : first + number col - 1 = number source) :
    (mk rows cols grid).copyByNumber first (number row) (mk rows width out) (number col) =
      .ok (mk rows width (out.set row col (grid.entry row source))) := by
  simp only [copyByNumber, hsource, get_number, RatMatrix.set, locate_number]
  rfl

/-- Otherwise the place is outside, whatever was copied before. -/
theorem copyByNumber_outside {m : RatMatrix} {first col : Int} (row : Int) (out : RatMatrix)
    (h : ¬ (1 ≤ first + col - 1 ∧ first + col - 1 ≤ m.cols)) :
    m.copyByNumber first row out col = .error (m.outside row (first + col - 1)) := by
  rw [copyByNumber, get, locate, dif_neg fun hbounds => h hbounds.2]
  rfl

/-- Columns that are all there. -/
theorem columnsByNumber_columns (grid : Grid rows cols) (start width : Nat)
    (hwithin : start + width ≤ cols) :
    (mk rows cols grid).columnsByNumber (start + 1) width =
      .ok (mk rows width (grid.columns start width hwithin)) := by
  have hstep : ∀ row ∈ List.finRange rows, ∀ col ∈ List.finRange width,
      Fills (grid.columns start width hwithin) {(row, col)} fun out =>
        (mk rows cols grid).copyByNumber (start + 1) (number row) out (number col) := by
    intro row _ col _
    have hsource : (start : Int) + 1 + number col - 1 =
        number (⟨start + col, by omega⟩ : Fin cols) := by
      simp only [number]
      omega
    simp only [copyByNumber, hsource, get_number]
    exact grid.entry_columns start width hwithin row col ▸ Fills.set rfl rfl
  refine (Fills.foldlM fun row hrow => Fills.foldlM (hstep row hrow)).eq_ok
    fun row col hplace => absurd ?_ hplace
  exact ⟨row, List.mem_finRange row, col, List.mem_finRange col, rfl⟩

/-- Without rows, or without columns to copy, nothing is looked up. -/
theorem columnsByNumber_empty {m : RatMatrix} (first : Int) {width : Nat}
    (h : m.rows = 0 ∨ width = 0) : m.columnsByNumber first width = .ok (zeros m.rows width) := by
  have hstep : ∀ row ∈ List.finRange m.rows, ∀ col ∈ List.finRange width,
      Fills (Grid.zeros m.rows width) ∅ fun out =>
        m.copyByNumber first (number row) out (number col) := by
    intro row _ col _
    have hrow := row.isLt
    have hcol := col.isLt
    omega
  exact (Fills.foldlM fun row hrow => Fills.foldlM (hstep row hrow)).eq_ok fun _ _ _ => rfl

/-! ## The first column that is not there -/

/-- An index between those before it and those behind it. -/
theorem exists_finRange_split {n : Nat} (index : Fin n) :
    ∃ before behind, List.finRange n = before ++ index :: behind ∧
      ∀ other ∈ before, other < index := by
  obtain ⟨before, behind, hsplit⟩ := List.append_of_mem (List.mem_finRange index)
  have hsorted := List.pairwise_lt_finRange n
  rw [hsplit, List.pairwise_append] at hsorted
  exact ⟨before, behind, hsplit, fun other hother =>
    hsorted.2.2 other hother index List.mem_cons_self⟩

/-- A loop whose steps keep to matrices of one size. -/
theorem foldlM_mk {ι : Type} {step : RatMatrix → ι → Except Failure RatMatrix} {list : List ι}
    (h : ∀ item ∈ list, ∀ grid : Grid rows cols, ∃ next : Grid rows cols,
      step (mk rows cols grid) item = .ok (mk rows cols next)) (grid : Grid rows cols) :
    ∃ next : Grid rows cols, list.foldlM step (mk rows cols grid) = .ok (mk rows cols next) := by
  induction list generalizing grid with
  | nil => exact ⟨grid, rfl⟩
  | cons item rest ih =>
    obtain ⟨hitem, hrest⟩ := List.forall_mem_cons.1 h
    obtain ⟨middle, hmiddle⟩ := hitem grid
    obtain ⟨next, hnext⟩ := ih hrest middle
    refine ⟨next, ?_⟩
    rw [List.foldlM_cons, hmiddle]
    exact hnext

/-- Copying stops in the first row at the first column that is not there. -/
theorem columnsByNumber_outside {m : RatMatrix} {first : Int} {width : Nat} (hrows : 0 < m.rows)
    (bad : Fin width) (hbad : ¬ (1 ≤ first + number bad - 1 ∧ first + number bad - 1 ≤ m.cols))
    (hgood : ∀ col < bad, 1 ≤ first + number col - 1 ∧ first + number col - 1 ≤ m.cols) :
    m.columnsByNumber first width = .error (m.outside 1 (first + number bad - 1)) := by
  obtain ⟨_ | rows, cols, grid⟩ := m
  · exact absurd hrows (Nat.lt_irrefl 0)
  let step (out : RatMatrix) (col : Fin width) : Except Failure RatMatrix :=
    (mk (rows + 1) cols grid).copyByNumber first (number (0 : Fin (rows + 1))) out (number col)
  obtain ⟨before, behind, hsplit, hbefore⟩ := exists_finRange_split bad
  have hcopied : ∀ col ∈ before, ∀ out : Grid (rows + 1) width, ∃ next : Grid (rows + 1) width,
      step (mk (rows + 1) width out) col = .ok (mk (rows + 1) width next) := by
    intro col hcol out
    have hbounds := hgood col (hbefore col hcol)
    have hsource : first + number col - 1 =
        number (⟨(first + number col - 2).toNat, by dsimp only at hbounds; omega⟩ : Fin cols) := by
      simp only [number] at hbounds ⊢
      omega
    exact ⟨_, copyByNumber_number grid out 0 hsource⟩
  -- what the columns before it have left behind does not matter to the column that is not there
  obtain ⟨next, hnext⟩ := foldlM_mk hcopied (Grid.zeros (rows + 1) width)
  have hrow : (List.finRange width).foldlM step (zeros (rows + 1) width) =
      .error ((mk (rows + 1) cols grid).outside 1 (first + number bad - 1)) := by
    rw [hsplit, List.foldlM_append, zeros, hnext]
    show (bad :: behind).foldlM step (mk (rows + 1) width next) = _
    rw [List.foldlM_cons]
    exact congrArg (· >>= fun out => behind.foldlM step out) (copyByNumber_outside _ _ hbad)
  rw [columnsByNumber, List.finRange_succ, List.foldlM_cons]
  exact congrArg (· >>= _) hrow

/-! ## What becomes of a cut -/

/-- A column from `first` to `last` is not there, and there is a row to look for it. -/
def LeavesColumns (m : RatMatrix) (first last : Int) : Prop :=
  0 < m.rows ∧ first ≤ last ∧ (first < 1 ∨ m.cols < last)

instance (m : RatMatrix) (first last : Int) : Decidable (m.LeavesColumns first last) :=
  inferInstanceAs (Decidable (_ ∧ _ ∧ _))

/-- The number of the first column from `first` on that is not there. -/
def firstOutside (m : RatMatrix) (first : Int) : Int :=
  if first < 1 then first else max first (m.cols + 1)

/-- A cut asks for no entry, or for columns that are all there, or for one that is not; and if it
asks for too many to be laid out, then for one that is not as well. -/
inductive CutCase (m : RatMatrix) (first last : Int) : Prop
  | empty (h : m.rows = 0 ∨ last < first)
  | within (start width : Nat) (hfirst : first = start + 1) (hlast : last = start + width)
      (hwithin : start + width ≤ m.cols)
  | outside (hroom : m.HasRoom first last) (h : m.LeavesColumns first last)
  | tooMany (hroom : ¬ m.HasRoom first last) (h : m.LeavesColumns first last)

/-- A cut stays inside the columns, or is empty, or leaves them, or asks for too many entries. -/
theorem cutCase (m : RatMatrix) (first last : Int) : m.CutCase first last := by
  by_cases hempty : m.rows = 0 ∨ last < first
  · exact .empty hempty
  · by_cases hbounds : 1 ≤ first ∧ last ≤ m.cols
    · exact .within (first - 1).toNat (last - first + 1).toNat (by omega) (by omega) (by omega)
    · have hleaves : m.LeavesColumns first last := ⟨by omega, by omega, by omega⟩
      by_cases hroom : m.HasRoom first last
      · exact .outside hroom hleaves
      · exact .tooMany hroom hleaves

section Cut

variable {m : RatMatrix} {first last : Int}

/-- Nothing has to be laid out for no entry. -/
theorem hasRoom_of_empty (h : m.rows = 0 ∨ last < first) : m.HasRoom first last := by
  refine .inr ?_
  have hentries : m.rows * (last - first + 1).toNat = 0 := by
    rcases h with hrows | hlt
    · rw [hrows, Nat.zero_mul]
    · rw [show (last - first + 1).toNat = 0 by omega, Nat.mul_zero]
  rw [hentries]
  exact Nat.zero_le _

/-- Columns that are all there have been laid out before. -/
theorem hasRoom_of_le (hfirst : 1 ≤ first) (hlast : last ≤ m.cols) : m.HasRoom first last :=
  .inl (by omega)

/-- A cut of no entries is an empty matrix of its size. -/
theorem columnSlice_empty (h : m.rows = 0 ∨ last < first) :
    m.columnSlice first last = .ok (zeros m.rows (last - first + 1).toNat) := by
  rw [columnSlice, if_neg (not_not.2 (hasRoom_of_empty h)), dif_pos h.symm]

/-- A cut that leaves the columns fails at the first column that is not there. -/
theorem columnSlice_outside (hroom : m.HasRoom first last) (h : m.LeavesColumns first last) :
    m.columnSlice first last = .error (m.outside 1 (m.firstOutside first)) := by
  obtain ⟨hrows, hle, hbounds⟩ := h
  rw [columnSlice, if_neg (not_not.2 hroom), dif_neg (by omega), dif_neg (by omega), firstOutside]

/-- A cut that asks for too many entries fails before any column is looked at. -/
theorem columnSlice_tooMany (hroom : ¬ m.HasRoom first last) :
    m.columnSlice first last = .error (.fault .tooManyEntries) :=
  if_pos hroom

/-- The first column outside is the least of those that are asked for and not there. -/
theorem firstOutside_isLeast (h : m.LeavesColumns first last) :
    IsLeast {col | first ≤ col ∧ col ≤ last ∧ ¬ (1 ≤ col ∧ col ≤ m.cols)}
      (m.firstOutside first) := by
  obtain ⟨-, hle, hbounds⟩ := h
  unfold firstOutside
  constructor
  · show _ ∧ _ ∧ _
    split <;> omega
  · rintro col ⟨hfirst, -, hcol⟩
    split <;> omega

end Cut

/-- Cutting by number fails at the same columns as the plain cut, and nowhere else. -/
theorem columnSliceByNumber_eq (m : RatMatrix) (first last : Int) :
    m.columnSliceByNumber first last = m.columnSlice first last := by
  cases m.cutCase first last with
  | empty h =>
    rw [columnSlice_empty h, columnSliceByNumber, if_pos (hasRoom_of_empty h)]
    exact columnsByNumber_empty first (h.imp_right fun hlt => by omega)
  | within start width hfirst hlast hwithin =>
    subst hfirst hlast
    have hwidth : ((start : Int) + width - (start + 1) + 1).toNat = width := by omega
    rw [columnSlice_columns m.grid start width hwithin, columnSliceByNumber,
      if_pos (hasRoom_of_le (by omega) (by omega)), hwidth]
    exact columnsByNumber_columns m.grid start width hwithin
  | outside hroom h =>
    obtain ⟨⟨hfirst, hlast, hbad⟩, hleast⟩ := firstOutside_isLeast h
    let bad : Fin (last - first + 1).toNat := ⟨(m.firstOutside first - first).toNat, by omega⟩
    have hnumber : first + number bad - 1 = m.firstOutside first := by
      simp only [bad, number]
      omega
    rw [columnSlice_outside hroom h, columnSliceByNumber, if_pos hroom, ← hnumber]
    refine columnsByNumber_outside h.1 bad (by rw [hnumber]; exact hbad) fun col hcol => ?_
    by_contra hout
    have hlt : number col < number bad := number_lt_iff.2 hcol
    have hcolLast : first + number col - 1 ≤ last := by omega
    have hcolFirst : first ≤ first + number col - 1 := by
      simp only [number]
      omega
    have hle := hleast ⟨hcolFirst, hcolLast, hout⟩
    omega
  | tooMany hroom =>
    rw [columnSlice_tooMany hroom]
    exact if_neg hroom

/-! ## Cutting apart and joining -/

/-- The columns up to some column, which need no offset. -/
theorem columnSlice_left (grid : Grid rows cols) (width : Nat) (hwithin : 0 + width ≤ cols) :
    (mk rows cols grid).columnSlice 1 width =
      .ok (mk rows width (grid.columns 0 width hwithin)) := by
  have hslice := columnSlice_columns grid 0 width hwithin
  rwa [Nat.cast_zero, zero_add, zero_add] at hslice

section Halves

variable (hleft : 0 + cols ≤ cols + width) (hright : cols + width ≤ cols + width)

/-- Counted from the first column, the left columns keep their places. -/
theorem zero_add_castAdd (col : Fin cols) (h : 0 + col.val < cols + width) :
    (⟨0 + col, h⟩ : Fin (cols + width)) = col.castAdd width :=
  Fin.ext (Nat.zero_add _)

/-- The left columns of two grids side by side are the left grid. -/
theorem columns_augment_left (left : Grid rows cols) (right : Grid rows width) :
    (left.augment right).columns 0 cols hleft = left := by
  ext1 row col
  rw [Grid.entry_columns, zero_add_castAdd, Grid.entry_augment_castAdd]

/-- The right columns of two grids side by side are the right grid. -/
theorem columns_augment_right (left : Grid rows cols) (right : Grid rows width) :
    (left.augment right).columns cols width hright = right := by
  ext1 row col
  rw [Grid.entry_columns]
  exact Grid.entry_augment_natAdd left right row col

/-- The left and the right columns of a grid, side by side, are the grid. -/
theorem augment_columns (grid : Grid rows (cols + width)) :
    (grid.columns 0 cols hleft).augment (grid.columns cols width hright) = grid := by
  ext1 row col
  refine col.addCases (fun col => ?_) (fun col => ?_)
  · rw [Grid.entry_augment_castAdd, Grid.entry_columns, zero_add_castAdd]
  · rw [Grid.entry_augment_natAdd, Grid.entry_columns]
    rfl

end Halves

/-- What becomes of a cut from column `first` to column `last`, whatever integers these are. A cut
that is refused names the first place outside, unless the columns cannot even be laid out, or the
numbers of that place are too long to be written. -/
structure CutExact (m : RatMatrix) (first last : Int) : Prop where
  byNumber : m.columnSliceByNumber first last = m.columnSlice first last
  refused_iff : (∃ failure, m.columnSlice first last = .error failure) ↔
    m.LeavesColumns first last
  refused_eq : ∀ failure, m.columnSlice first last = .error failure →
    if m.HasRoom first last then
      ∃ col, IsLeast {col | first ≤ col ∧ col ≤ last ∧ ¬ (1 ≤ col ∧ col ≤ m.cols)} col ∧
        failure = m.outside 1 col
    else failure = .fault .tooManyEntries
  indexError_iff :
    (∃ failure, m.columnSlice first last = .error failure ∧ failure.className = "IndexError") ↔
      m.LeavesColumns first last ∧ m.HasRoom first last ∧ m.CanName 1 (m.firstOutside first)
  size : ¬ m.LeavesColumns first last → ∃ slice, m.columnSlice first last = .ok slice ∧
    slice.rows = m.rows ∧ (slice.cols : Int) = max (last - first + 1) 0

/-- A cut that leaves the columns is refused, in one of two ways. -/
theorem columnSlice_of_leavesColumns {m : RatMatrix} {first last : Int}
    (h : m.LeavesColumns first last) : m.columnSlice first last =
      .error (if m.HasRoom first last then m.outside 1 (m.firstOutside first)
        else .fault .tooManyEntries) := by
  split
  · next hroom => exact columnSlice_outside hroom h
  · next hroom => exact columnSlice_tooMany hroom

/-- Every cut comes to what its bounds say. -/
theorem cutExact (m : RatMatrix) (first last : Int) : m.CutExact first last := by
  have hok : ¬ m.LeavesColumns first last → ∃ slice, m.columnSlice first last = .ok slice ∧
      slice.rows = m.rows ∧ (slice.cols : Int) = max (last - first + 1) 0 := by
    intro hinside
    cases m.cutCase first last with
    | empty h => exact ⟨_, columnSlice_empty h, rfl, Int.toNat_eq_max _⟩
    | within start width hfirst hlast hwithin =>
      subst hfirst hlast
      refine ⟨_, columnSlice_columns m.grid start width hwithin, rfl, ?_⟩
      show (width : Int) = _
      omega
    | outside _ h => exact absurd h hinside
    | tooMany _ h => exact absurd h hinside
  have hrefused : ∀ failure, m.columnSlice first last = .error failure →
      m.LeavesColumns first last ∧
        failure = if m.HasRoom first last then m.outside 1 (m.firstOutside first)
          else .fault .tooManyEntries := by
    intro failure hfailure
    by_cases h : m.LeavesColumns first last
    · rw [columnSlice_of_leavesColumns h] at hfailure
      exact ⟨h, (Except.error.inj hfailure).symm⟩
    · obtain ⟨slice, hslice, -⟩ := hok h
      rw [hslice] at hfailure
      cases hfailure
  constructor
  case byNumber => exact columnSliceByNumber_eq m first last
  case refused_iff =>
    exact ⟨fun ⟨failure, hfailure⟩ => (hrefused failure hfailure).1,
      fun h => ⟨_, columnSlice_of_leavesColumns h⟩⟩
  case refused_eq =>
    intro failure hfailure
    obtain ⟨h, rfl⟩ := hrefused failure hfailure
    split
    · exact ⟨_, firstOutside_isLeast h, rfl⟩
    · rfl
  case indexError_iff =>
    constructor
    · rintro ⟨failure, hfailure, hclass⟩
      obtain ⟨h, rfl⟩ := hrefused failure hfailure
      split at hclass
      · next hroom => exact ⟨h, hroom, className_outside_iff.1 hclass⟩
      · exact absurd hclass (by decide)
    · rintro ⟨h, hroom, hname⟩
      exact ⟨_, columnSlice_outside hroom h, className_outside_iff.2 hname⟩
  case size => exact hok

/-- A matrix and one with as many rows are joined and cut apart again, and a matrix is cut after any
of its columns and joined again, without rows or columns as well, and always with the entries as
they are stored. A cut at any two integers fails if and only if there is a row and a column of the
cut is not there; the failure names that column, if the columns can be laid out and the number can
be written. -/
theorem columns_cut_join (m : RatMatrix) (first last : Int) :
    (∀ other : RatMatrix, m.rows = other.rows → ∃ joined, m.augment other = .ok joined ∧
      joined.columnSlice 1 m.cols = .ok m ∧
      joined.columnSlice (m.cols + 1) (m.cols + other.cols) = .ok other) ∧
    (∀ k : Nat, k ≤ m.cols → ∃ left right, m.columnSlice 1 k = .ok left ∧
      m.columnSlice (k + 1) m.cols = .ok right ∧ left.augment right = .ok m) ∧
    m.CutExact first last := by
  refine ⟨fun other hrows => ?_, fun k hk => ?_, m.cutExact first last⟩
  · obtain ⟨rows, cols, left⟩ := m
    obtain ⟨rows', width, right⟩ := other
    obtain rfl : rows = rows' := hrows
    refine ⟨_, augment_mk left right, ?_, ?_⟩
    · rw [columnSlice_left _ cols (by omega), columns_augment_left]
    · rw [columnSlice_columns _ cols width le_rfl, columns_augment_right]
  · obtain ⟨rows, cols, grid⟩ := m
    obtain ⟨width, rfl⟩ := Nat.exists_eq_add_of_le hk
    refine ⟨_, mk rows width (grid.columns k width le_rfl), columnSlice_left grid k (by omega),
      ?_, ?_⟩
    · rw [← columnSlice_columns grid k width le_rfl, Nat.cast_add]
    · rw [augment_mk, augment_columns]

/-- The row `2/4 0/5` and the row `3` are joined and cut apart, and a cut from column 0 fails. -/
theorem columns_cut_join_unreduced :
    let left : RatMatrix := ⟨1, 2, ⟨#v[⟨2, 4, by decide⟩, ⟨0, 5, by decide⟩]⟩⟩
    let right : RatMatrix := ⟨1, 1, ⟨#v[.ofInt 3]⟩⟩
    let joined : RatMatrix := ⟨1, 3, ⟨#v[⟨2, 4, by decide⟩, ⟨0, 5, by decide⟩, .ofInt 3]⟩⟩
    left.augment right = .ok joined ∧ joined.columnSlice 1 2 = .ok left ∧
      joined.columnSlice 3 3 = .ok right ∧
      ∃ failure, joined.columnSlice 0 1 = .error failure ∧ failure.className = "IndexError" := by
  intro left right joined
  obtain ⟨found, hfound, hleft, hright⟩ := (columns_cut_join left 0 1).1 right rfl
  have hjoined : left.augment right = .ok joined := by decide +kernel
  rw [hjoined] at hfound
  cases hfound
  exact ⟨hjoined, hleft, hright, (columns_cut_join joined 0 1).2.2.indexError_iff.2
    ⟨by decide, by decide, by decide +kernel⟩⟩

/-- Columns of a matrix with one entry that are not there, without a failure that says so: so many
that they cannot be laid out, and one whose number is too long to be written. -/
theorem columnSlice_unnamed :
    let m : RatMatrix := ⟨1, 1, ⟨#v[.ofInt 1]⟩⟩
    let far : Int := (10 ^ Numeral.digitLimit : Nat)
    (m.LeavesColumns 1 (10 ^ 30) ∧ m.columnSlice 1 (10 ^ 30) = .error (.fault .tooManyEntries)) ∧
      m.LeavesColumns far far ∧ m.columnSlice far far = .error (.fault .tooLongToWrite) := by
  intro m far
  have hfar : m.LeavesColumns far far := by decide +kernel
  refine ⟨⟨by decide, by decide +kernel⟩, hfar, ?_⟩
  rw [columnSlice_outside (by decide +kernel) hfar, outside_of_not_canName (by decide +kernel)]

end MatrixCalc.RatMatrix
