import MatrixCalc.Proofs.Entry.Basic
import MatrixCalc.Proofs.RatMatrix.Rows
import MatrixCalc.Proofs.Rendering
import MatrixCalc.Proofs.Value

/-!
# What is shown can be entered again

The rows of a matrix as they are drawn are accepted at the prompts for a matrix, one after the
other, and give the matrix in lowest terms (`Entry.definer_rowLines`). So the drawing determines
the matrix, and a value is determined by the way it is shown: `Value.display_entry_inverse`.
-/

namespace MatrixCalc

/-! ## Reading the rows of a box -/

namespace RatMatrix

/-- The rows of a matrix in lowest terms. -/
def reducedRow (m : RatMatrix) (row : Fin m.rows) : List Fraction :=
  (List.finRange m.cols).map fun col => (m.grid.entry row col).reduce

/-- The rows in lowest terms are the reduced rows. -/
theorem toRows_reduce (m : RatMatrix) :
    m.reduce.toRows = (List.finRange m.rows).map m.reducedRow := by
  refine List.map_congr_left fun row _ => List.map_congr_left fun col _ => ?_
  exact m.grid.entry_map _ row col

/-- If the entries in lowest terms keep to the digit limit, each of them does. -/
theorem fits_reduce_entry {m : RatMatrix} (h : m.reduce.fits = true) (row : Fin m.rows)
    (col : Fin m.cols) : (m.grid.entry row col).reduce.fits = true := by
  refine List.all_eq_true.1 h _ ?_
  rw [toList, ← Grid.flatten_toRows]
  refine List.mem_flatten.2 ⟨m.reducedRow row, ?_, List.mem_map_of_mem (List.mem_finRange col)⟩
  show m.reducedRow row ∈ m.reduce.toRows
  rw [toRows_reduce]
  exact List.mem_map_of_mem (List.mem_finRange row)

end RatMatrix

namespace Entry

open RatMatrix (rowLine reducedRow)

variable {m : RatMatrix}

/-- The fields of a drawn row are read as its entries in lowest terms. -/
theorem readFields_rowLine (hfits : m.reduce.fits = true) (row : Fin m.rows) :
    readFields (m.rowLine row) = .ok (m.reducedRow row) := by
  have hparse : (Fraction.parse ∘ m.cell row) = fun col => pure (m.grid.entry row col).reduce :=
    funext fun col => Fraction.parse_text (RatMatrix.fits_reduce_entry hfits row col)
  rw [readFields, m.fields_rowLine, RatMatrix.rowCells, List.mapM_map, hparse]
  exact List.mapM_pure

/-- A blank line has no fields. -/
theorem fields_of_isBlankLine {line : String} (h : isBlankLine line = true) :
    Text.fields line = [] := by
  have hruns := Text.runs_blanks_append (List.all_eq_true.1 h) []
  rw [List.append_nil] at hruns
  rw [Text.fields, hruns]
  rfl

/-- The line of a row with entries is not blank. -/
theorem isBlankLine_rowLine (hcols : 0 < m.cols) (row : Fin m.rows) :
    isBlankLine (m.rowLine row) = false := by
  refine Bool.eq_false_iff.2 fun hblank => ?_
  have hlength := congrArg List.length (fields_of_isBlankLine hblank)
  rw [m.fields_rowLine, RatMatrix.rowCells, List.length_map, List.length_finRange] at hlength
  exact absurd hlength hcols.ne'

/-- A reduced row has an entry for each column. -/
theorem length_reducedRow (row : Fin m.rows) : (m.reducedRow row).length = m.cols := by
  simp [reducedRow]

/-- A drawn row is accepted below other rows of the matrix. -/
theorem judgeRow_rowLine (hcols : 0 < m.cols) (hfits : m.reduce.fits = true)
    {rows : List (List Fraction)} (hrows : ∀ row ∈ rows, row.length = m.cols) (row : Fin m.rows) :
    judgeRow rows (m.rowLine row) = .accepted (rows ++ [m.reducedRow row]) := by
  have hwidth : (rows.head?.map List.length).getD (m.reducedRow row).length = m.cols := by
    cases rows with
    | nil => exact length_reducedRow row
    | cons first more => exact hrows first List.mem_cons_self
  have hreduced : (m.reducedRow row).map Fraction.reduce = m.reducedRow row := by
    simp [reducedRow]
  rw [judgeRow, if_neg (by simp [isBlankLine_rowLine hcols row]), readFields_rowLine hfits row]
  dsimp only
  rw [hwidth, if_pos (length_reducedRow row), hreduced]

/-- Drawn rows are accepted one below the other. -/
theorem accepts_rowLines (hcols : 0 < m.cols) (hfits : m.reduce.fits = true)
    (indices : List (Fin m.rows)) {rows : List (List Fraction)}
    (hrows : ∀ row ∈ rows, row.length = m.cols) :
    Accepts judgeRow rows (indices.map m.rowLine) (rows ++ indices.map m.reducedRow) := by
  induction indices generalizing rows with
  | nil =>
    rw [List.map_nil, List.map_nil, List.append_nil]
    exact .nil rows
  | cons first more ih =>
    have hlonger : ∀ row ∈ rows ++ [m.reducedRow first], row.length = m.cols :=
      List.forall_mem_append.2 ⟨hrows, List.forall_mem_singleton.2 (length_reducedRow first)⟩
    have hmore := ih hlonger
    rw [List.append_assoc, List.singleton_append] at hmore
    exact .cons (judgeRow_rowLine hcols hfits hrows first) hmore

/-- The drawn rows of a matrix, and a blank line behind them, are taken at the prompts and give
the matrix in lowest terms. -/
theorem definer_rowLines (hrows : 0 < m.rows) (hcols : 0 < m.cols) (hfits : m.reduce.fits = true)
    {blank : String} (hblank : isBlankLine blank = true) (name : String) {terminal : Terminal}
    {rest : List Typed}
    (htyped : terminal.typed =
      ((List.finRange m.rows).map m.rowLine).map .line ++ .line blank :: rest) :
    definer.matrix name terminal =
      (some m.reduce, (terminal.say ("Define matrix " ++ name ++
        ": one row per line, blank line to finish")).prompted "  " (m.rows + 1) rest) := by
  have haccepts : Accepts judgeRow [] _ _ :=
    accepts_rowLines hcols hfits (List.finRange m.rows) nofun
  rw [List.nil_append, ← m.toRows_reduce] at haccepts
  have hmatrix : matrixOfRows m.reduce.toRows = some m.reduce := by
    have hne : m.reduce.toRows.isEmpty = false := by
      rw [List.isEmpty_eq_false_iff, ← List.length_pos_iff, RatMatrix.length_toRows]
      exact hrows
    have hread : RatMatrix.ofRows (m.reduce.toRows.map fun row => row.map .fraction) =
        .ok m.reduce := RatMatrix.ofRows_toRows hrows
    rw [matrixOfRows, hne, hread]
    rfl
  have hlast : judgeRow m.reduce.toRows blank = .finished (some m.reduce) := by
    rw [judgeRow, if_pos hblank, hmatrix]
  have hcollect : readMatrix ("Define matrix " ++ name) terminal = _ :=
    collect_of_accepts_finished haccepts hlast htyped
  rw [List.length_map, List.length_finRange] at hcollect
  exact hcollect

end Entry

/-! ## Values and their texts -/

namespace RatMatrix

/-- Matrices without entries that are described alike have the same size. -/
theorem equiv_of_box_eq_of_empty {m n : RatMatrix} (hm : m.rows = 0 ∨ m.cols = 0)
    (hn : n.rows = 0 ∨ n.cols = 0) (h : m.box = n.box) : m.Equiv n := by
  obtain ⟨hrows, hcols⟩ := size_eq_of_box_eq hm hn h
  obtain ⟨rows, cols, left⟩ := m
  obtain ⟨rows', cols', right⟩ := n
  cases hrows
  cases hcols
  refine .mk (Grid.values_eq_iff.2 fun row col => ?_)
  rcases hm with rfl | rfl
  · exact row.elim0
  · exact col.elim0

/-- Matrices with entries that are drawn alike are the same, since they are read back. -/
theorem equiv_of_box_eq_of_nonempty {m n : RatMatrix} (hm : 0 < m.rows ∧ 0 < m.cols)
    (hn : 0 < n.rows ∧ 0 < n.cols) (hmfits : m.reduce.fits = true) (hnfits : n.reduce.fits = true)
    (h : m.box = n.box) : m.Equiv n := by
  have hlines : (List.finRange m.rows).map m.rowLine = (List.finRange n.rows).map n.rowLine := by
    have hboxes := boxRows?_box hm.1 hm.2
    rw [h, boxRows?_box hn.1 hn.2] at hboxes
    exact (Option.some.inj hboxes).symm
  let terminal := Terminal.start
    (((List.finRange m.rows).map m.rowLine).map .line ++ [.line ""])
  have hblank : Entry.isBlankLine "" = true := rfl
  have htyped : terminal.typed =
      ((List.finRange m.rows).map m.rowLine).map .line ++ [.line ""] := rfl
  have hread := Entry.definer_rowLines hm.1 hm.2 hmfits hblank "" htyped
  have hread' := Entry.definer_rowLines hn.1 hn.2 hnfits hblank "" (hlines ▸ htyped)
  rw [hread] at hread'
  exact reduce_eq_reduce_iff.1 (Option.some.inj (congrArg Prod.fst hread'))

/-- Matrices that are shown alike are the same. -/
theorem equiv_of_box_eq {m n : RatMatrix} (hmfits : m.boxFits = true) (hnfits : n.boxFits = true)
    (h : m.box = n.box) : m.Equiv n := by
  have hhead := congrArg (fun text => text.toList.head?) h
  simp only [head?_box, Option.some.injEq] at hhead
  by_cases hm : m.rows = 0 ∨ m.cols = 0
  · by_cases hn : n.rows = 0 ∨ n.cols = 0
    · exact equiv_of_box_eq_of_empty hm hn h
    · simp [hm, hn] at hhead
  · by_cases hn : n.rows = 0 ∨ n.cols = 0
    · simp [hm, hn] at hhead
    · have hmpos : 0 < m.rows ∧ 0 < m.cols := by omega
      have hnpos : 0 < n.rows ∧ 0 < n.cols := by omega
      rw [boxFits_of_nonempty hmpos.1 hmpos.2] at hmfits
      rw [boxFits_of_nonempty hnpos.1 hnpos.2] at hnfits
      exact equiv_of_box_eq_of_nonempty hmpos hnpos hmfits hnfits h

end RatMatrix

namespace Value

/-- Values that are shown alike are equal. -/
theorem equiv_of_text_eq {a b : Value} (ha : a.fits = true) (hb : b.fits = true)
    (h : a.text = b.text) : a.Equiv b := by
  cases a with
  | scalar a =>
    cases b with
    | scalar b =>
      have hparse := Fraction.parse_text ha
      rw [show a.reduce.text = b.reduce.text from h, Fraction.parse_text hb] at hparse
      have hreduce : a.reduce = b.reduce := (Except.ok.inj hparse).symm
      exact .scalar (Fraction.equiv_iff.2 (Fraction.reduce_eq_reduce_iff.1 hreduce))
    | matrix n => exact absurd h (text_scalar_ne_matrix a n)
  | matrix m =>
    cases b with
    | scalar b => exact absurd h.symm (text_scalar_ne_matrix b m)
    | matrix n => exact .of_matrices (RatMatrix.equiv_of_box_eq ha hb h)

/-- The drawing of a matrix whose entries keep to the digit limit, without its corners and margins
and with a blank line behind it, is taken line by line at the prompts for a matrix, without a
problem, and gives the matrix in lowest terms. And two values within the limit are shown alike
exactly if they are of one kind and equal. -/
theorem display_entry_inverse :
    (∀ (m : RatMatrix) (name blank : String) (terminal : Terminal) (rest : List Typed),
      0 < m.rows → 0 < m.cols → m.reduce.fits = true → Entry.isBlankLine blank = true →
        ∃ drawn lines, m.render = .ok drawn ∧ RatMatrix.boxRows? drawn = some lines ∧
          Entry.definer.matrix name
              { terminal with typed := lines.map .line ++ .line blank :: rest } =
            (some m.reduce, (terminal.say ("Define matrix " ++ name ++
              ": one row per line, blank line to finish")).prompted "  " (m.rows + 1) rest)) ∧
      ∀ a b : Value, a.fits = true → b.fits = true →
        ∃ shown shown', a.render = .ok shown ∧ b.render = .ok shown' ∧
          (shown = shown' ↔ a.Equiv b) := by
  constructor
  · intro m name blank terminal rest hrows hcols hfits hblank
    have hrender : m.render = .ok m.box := by
      rw [RatMatrix.render, RatMatrix.boxFits_of_nonempty hrows hcols, if_pos hfits]
    exact ⟨m.box, _, hrender, RatMatrix.boxRows?_box hrows hcols,
      Entry.definer_rowLines hrows hcols hfits hblank name rfl⟩
  · intro a b ha hb
    refine ⟨a.text, b.text, by rw [render_eq, if_pos ha], by rw [render_eq, if_pos hb],
      equiv_of_text_eq ha hb, fun h => ?_⟩
    have hrender := h.render_eq
    rw [render_eq, if_pos ha, render_eq, if_pos hb] at hrender
    exact Except.ok.inj hrender

/-- A row with an entry that is not in lowest terms, and two forms of one half. -/
theorem display_entry_inverse_row :
    let m : RatMatrix := ⟨1, 2, ⟨#v[.ofInt 3, ⟨-2, 4, by decide⟩]⟩⟩
    let half : Fraction := ⟨1, 2, by decide⟩
    let quarters : Fraction := ⟨2, 4, by decide⟩
    (m.render = .ok "┌           ┐\n│ 3    -1/2 │\n└           ┘" ∧
      (Entry.definer.matrix "A" (.start [.line "3    -1/2", .line " "])).1 = some m.reduce) ∧
      (scalar half).render = (scalar quarters).render := by
  intro m half quarters
  constructor
  · obtain ⟨drawn, lines, hrender, hlines, hentry⟩ := display_entry_inverse.1 m "A" " "
      (.start []) [] (by decide) (by decide) (by decide +kernel) (by decide)
    have hdrawn : m.render = .ok "┌           ┐\n│ 3    -1/2 │\n└           ┘" := by
      decide +kernel
    rw [hdrawn] at hrender
    cases hrender
    have hrows : RatMatrix.boxRows? "┌           ┐\n│ 3    -1/2 │\n└           ┘" =
        some ["3    -1/2"] := by
      decide +kernel
    rw [hrows] at hlines
    cases hlines
    exact ⟨hdrawn, congrArg Prod.fst hentry⟩
  · obtain ⟨shown, shown', hhalf, hquarters, hsame⟩ := display_entry_inverse.2 (.scalar half)
      (.scalar quarters) (by decide +kernel) (by decide +kernel)
    rw [hhalf, hquarters, hsame.2 (.scalar (by decide))]

end Value

end MatrixCalc
