import MatrixCalc.Proofs.Entry.Display
import MatrixCalc.Proofs.Entry.Refused
import MatrixCalc.Proofs.Fraction.Format

/-!
# Prompts for matrices and scalars

Refused lines leave no trace. What is left without them decides on the value: rows and a blank line
behind them give a matrix, one line gives a scalar (`refused_lines_leave_no_trace`).
-/

namespace MatrixCalc

namespace Entry

/-! ## Rows -/

/-- The entries of a row are the fields of a line, as they are read and brought to lowest
terms. -/
def ReadsAs (line : String) (row : List Fraction) : Prop :=
  List.Forall₂ (fun field entry => ∃ value, Fraction.parse field = .ok value ∧ entry = value.reduce)
    (Text.fields line) row

/-- A row has as many entries as its line has fields. -/
theorem ReadsAs.length_eq {line : String} {row : List Fraction} (h : ReadsAs line row) :
    (Text.fields line).length = row.length :=
  List.Forall₂.length_eq h

/-- Every field of the line of a row is a number. -/
theorem ReadsAs.parse_eq_ok {line field : String} {row : List Fraction} (h : ReadsAs line row)
    (hfield : field ∈ Text.fields line) : ∃ value, Fraction.parse field = .ok value := by
  obtain ⟨index, hindex, rfl⟩ := List.mem_iff_getElem.1 hfield
  have hrow : index < row.length := h.length_eq ▸ hindex
  obtain ⟨value, hparse, -⟩ := List.Forall₂.get h hindex hrow
  exact ⟨value, hparse⟩

/-- The fields of a line are read as a row, or one of them is no number. -/
theorem readFields_meets (line : String) :
    Meets (fun entries => ReadsAs line (entries.map Fraction.reduce))
      (fun failure => ∃ field ∈ Text.fields line, Fraction.parse field = .error failure)
      (readFields line) := by
  refine (Meets.mapM Fraction.parse (Text.fields line)).mono (fun entries hentries => ?_)
    fun _ hunread => hunread
  exact List.forall₂_map_right_iff.2 (hentries.imp fun _ value hparse => ⟨value, hparse, rfl⟩)

/-- What comes of a line below other rows: it is blank, or it is one more row, as wide as the first
one, or one of its fields cannot be read, or it is of another width. -/
inductive JudgesRow (rows : List (List Fraction)) (line : String) :
    Verdict (List (List Fraction)) RatMatrix → Prop
  | blank (hline : isBlankLine line = true) : JudgesRow rows line (.finished (matrixOfRows rows))
  | row {row : List Fraction} (hline : isBlankLine line = false) (hreads : ReadsAs line row)
      (hwidth : ∀ first ∈ rows.head?, row.length = first.length) :
      JudgesRow rows line (.accepted (rows ++ [row]))
  | unread {field : String} {failure : Failure} (hline : isBlankLine line = false)
      (hfield : field ∈ Text.fields line) (hparse : Fraction.parse field = .error failure) :
      JudgesRow rows line (.refused (failure.text ++ "; re-enter the row"))
  | uneven {first : List Fraction} (hline : isBlankLine line = false) (hfirst : first ∈ rows.head?)
      (hwidth : (Text.fields line).length ≠ first.length) :
      JudgesRow rows line (.refused
        s!"uneven columns: expected {first.length} entries, got {(Text.fields line).length}")

/-- A line is judged by its fields and by the rows before it. -/
theorem judgeRow_cases (rows : List (List Fraction)) (line : String) :
    JudgesRow rows line (judgeRow rows line) := by
  have hfields := readFields_meets line
  rw [judgeRow]
  by_cases hblank : isBlankLine line = true
  · rw [if_pos hblank]
    exact .blank hblank
  rw [if_neg hblank]
  rw [Bool.not_eq_true] at hblank
  cases hread : readFields line with
  | error failure =>
    rw [hread] at hfields
    obtain ⟨field, hfield, hparse⟩ := hfields
    exact .unread hblank hfield hparse
  | ok entries =>
    rw [hread] at hfields
    have hreads : ReadsAs line (entries.map Fraction.reduce) := hfields
    have hlength := hreads.length_eq
    rw [List.length_map] at hlength
    dsimp only
    rw [← hlength]
    -- the first row is of any width, and each later one is held against it
    cases hrows : rows.head? with
    | none =>
      rw [Option.map_none, Option.getD_none, if_pos rfl]
      exact .row hblank hreads (by simp [hrows])
    | some first =>
      rw [Option.map_some, Option.getD_some]
      by_cases hwidth : (Text.fields line).length = first.length
      · rw [if_pos hwidth]
        refine .row hblank hreads fun other hother => ?_
        rw [hrows, Option.mem_some_iff] at hother
        rw [← hreads.length_eq, hwidth, hother]
      · rw [if_neg hwidth]
        exact .uneven hblank hrows hwidth

/-- A line is refused below other rows if a field of it cannot be read, or if it does not have as
many fields as there are entries in the first row. -/
theorem judgeRow_refused_iff (rows : List (List Fraction)) (line : String) :
    (∃ message, judgeRow rows line = .refused message) ↔
      isBlankLine line = false ∧
        ((∃ field ∈ Text.fields line, ∃ failure, Fraction.parse field = .error failure) ∨
          ∃ first ∈ rows.head?, (Text.fields line).length ≠ first.length) := by
  have hcases := judgeRow_cases rows line
  generalize judgeRow rows line = verdict at hcases
  cases hcases with
  | blank hline => simp [hline]
  | row hline hreads hwidth =>
    constructor
    · rintro ⟨_, ⟨⟩⟩
    · rintro ⟨-, ⟨field, hfield, failure, hparse⟩ | ⟨first, hfirst, hne⟩⟩
      · obtain ⟨value, hvalue⟩ := hreads.parse_eq_ok hfield
        rw [hparse] at hvalue
        cases hvalue
      · exact absurd (hreads.length_eq.trans (hwidth first hfirst)) hne
  | unread hline hfield hparse =>
    exact ⟨fun _ => ⟨hline, .inl ⟨_, hfield, _, hparse⟩⟩, fun _ => ⟨_, rfl⟩⟩
  | uneven hline hfirst hwidth =>
    exact ⟨fun _ => ⟨hline, .inr ⟨_, hfirst, hwidth⟩⟩, fun _ => ⟨_, rfl⟩⟩

/-! ## Rows that are accepted -/

/-- All rows are as wide as the first one. -/
def IsEven (rows : List (List Fraction)) : Prop :=
  ∀ first ∈ rows.head?, ∀ row ∈ rows, row.length = first.length

/-- Rows of one length stay so when one of this length is added. -/
theorem IsEven.concat {rows : List (List Fraction)} {row : List Fraction} (h : IsEven rows)
    (hrow : ∀ first ∈ rows.head?, row.length = first.length) : IsEven (rows ++ [row]) := by
  cases rows with
  | nil => simp [IsEven]
  | cons first more =>
    intro other hother
    obtain rfl : first = other := Option.some.inj hother
    exact List.forall_mem_append.2 ⟨h first rfl, List.forall_mem_singleton.2 (hrow first rfl)⟩

/-- Lines that are accepted are read as rows of one width. -/
theorem rows_of_accepts {lines : List String} {rows after : List (List Fraction)}
    (h : Accepts judgeRow rows lines after) (heven : IsEven rows) :
    IsEven after ∧ ∃ more, after = rows ++ more ∧ List.Forall₂ ReadsAs lines more := by
  induction h with
  | nil rows => exact ⟨heven, [], (List.append_nil rows).symm, .nil⟩
  | @cons rows middle after line lines hline _ ih =>
    have hcases := judgeRow_cases rows line
    rw [hline] at hcases
    cases hcases with
    | row _ hreads hwidth =>
      obtain ⟨hafter, more, rfl, hmore⟩ := ih (heven.concat hwidth)
      exact ⟨hafter, _ :: more, List.append_assoc _ _ _, .cons hreads hmore⟩

/-- The rows of a matrix are read from these lines, and all of the lines are of its width. -/
structure Enters (lines : List String) (m : RatMatrix) : Prop where
  rows : List.Forall₂ ReadsAs lines m.toRows
  cols : ∀ line ∈ lines, (Text.fields line).length = m.cols

/-- Lines that are read as the rows of a matrix enter it. -/
theorem enters_of_forall₂ {lines : List String} {m : RatMatrix}
    (h : List.Forall₂ ReadsAs lines m.toRows) : Enters lines m := by
  refine ⟨h, fun line hline => ?_⟩
  obtain ⟨index, hindex, rfl⟩ := List.mem_iff_getElem.1 hline
  have hrow : index < m.toRows.length := h.length_eq ▸ hindex
  have hreads : ReadsAs lines[index] m.toRows[index] := h.get hindex hrow
  rw [hreads.length_eq]
  exact RatMatrix.length_of_mem_toRows (List.getElem_mem hrow)

/-- Lines that are accepted from the start are read as rows of one width. -/
theorem rows_of_accepts_nil {lines : List String} {rows : List (List Fraction)}
    (h : Accepts judgeRow [] lines rows) : IsEven rows ∧ List.Forall₂ ReadsAs lines rows := by
  obtain ⟨heven, _, rfl, hmore⟩ := rows_of_accepts h nofun
  exact ⟨heven, hmore⟩

/-- Rows that were accepted are always put together to a matrix. -/
theorem ofRows_of_accepts {lines : List String} {rows : List (List Fraction)}
    (h : Accepts judgeRow [] lines rows) :
    ∃ m, RatMatrix.ofRows (rows.map fun row => row.map .fraction) = .ok m ∧ Enters lines m := by
  obtain ⟨heven, hreads⟩ := rows_of_accepts_nil h
  cases rows with
  | nil => exact ⟨.zeros 0 0, rfl, enters_of_forall₂ hreads⟩
  | cons first more =>
    obtain ⟨m, hrows, -⟩ := RatMatrix.exists_toRows_eq (heven first rfl)
    have hpos : 0 < m.rows := by
      rw [← m.length_toRows, hrows]
      exact Nat.succ_pos _
    rw [← hrows] at hreads ⊢
    exact ⟨m, RatMatrix.ofRows_toRows hpos, enters_of_forall₂ hreads⟩

/-- The rows of all accepted lines make up a matrix, which the lines enter. -/
theorem matrixOfRows_of_accepts {lines : List String} {rows : List (List Fraction)}
    (h : Accepts judgeRow [] lines rows) (hne : lines ≠ []) :
    ∃ m, matrixOfRows rows = some m ∧ Enters lines m := by
  obtain ⟨m, hread, henters⟩ := ofRows_of_accepts h
  refine ⟨m, ?_, henters⟩
  obtain ⟨-, hreads⟩ := rows_of_accepts_nil h
  cases rows with
  | nil =>
    cases hreads
    exact absurd rfl hne
  | cons first more =>
    rw [matrixOfRows, hread]
    rfl

/-! ## Matrices -/

/-- What is typed starts with lines that are not blank and a blank line behind them. -/
inductive RowsThenBlank : List Typed → List String → Prop
  | blank {line : String} (rest : List Typed) (hline : isBlankLine line = true) :
      RowsThenBlank (.line line :: rest) []
  | row {line : String} {typed : List Typed} {lines : List String}
      (hline : isBlankLine line = false) (hrest : RowsThenBlank typed lines) :
      RowsThenBlank (.line line :: typed) (line :: lines)

/-- Rows and a blank line behind them are all accepted if no line is refused. -/
theorem entered_of_rowsThenBlank {rows : List (List Fraction)} {typed : List Typed}
    {lines : List String} (h : RowsThenBlank (kept judgeRow rows typed) lines) :
    ∃ after, Accepts judgeRow rows lines after ∧
      (entered judgeRow rows typed).1 = matrixOfRows after := by
  -- the induction is on all that is typed, since a refused line is passed with the rows as they are
  induction typed generalizing rows lines with
  | nil => cases h
  | cons first rest ih =>
    cases first with
    | interrupt => cases h
    | line line =>
      have hcases := judgeRow_cases rows line
      rw [kept] at h
      rw [entered]
      generalize hjudge : judgeRow rows line = verdict at hcases h
      cases hcases with
      | blank hline =>
        cases h with
        | blank _ _ => exact ⟨rows, .nil rows, rfl⟩
        | row hnot _ => simp [hline] at hnot
      | row hline hreads hwidth =>
        cases h with
        | blank _ hblank => simp [hline] at hblank
        | row _ hrest =>
          obtain ⟨after, haccepts, hentered⟩ := ih hrest
          exact ⟨after, .cons hjudge haccepts, hentered⟩
      | unread => exact ih h
      | uneven => exact ih h

/-- A matrix is entered by rows and a blank line behind them only. -/
theorem exists_rowsThenBlank {rows : List (List Fraction)} {typed : List Typed}
    (h : (entered judgeRow rows typed).1 ≠ none) :
    ∃ lines, RowsThenBlank (kept judgeRow rows typed) lines := by
  induction typed generalizing rows with
  | nil => exact absurd rfl h
  | cons first rest ih =>
    cases first with
    | interrupt => exact absurd rfl h
    | line line =>
      have hcases := judgeRow_cases rows line
      rw [kept]
      rw [entered] at h
      generalize judgeRow rows line = verdict at hcases h
      cases hcases with
      | blank hline => exact ⟨[], .blank rest hline⟩
      | row hline hreads hwidth =>
        obtain ⟨lines, hlines⟩ := ih h
        exact ⟨line :: lines, .row hline hlines⟩
      | unread => exact ih h
      | uneven => exact ih h

/-- What is read depends on what is typed and not on what is printed. -/
theorem fst_readMatrix (title : String) (terminal : Terminal) :
    (readMatrix title terminal).1 = (entered judgeRow [] terminal.typed).1 :=
  congrArg Prod.fst (collect_eq_entered "  " judgeRow [] _)

/-- A prompt for a matrix to which refused lines make no difference. What is left without them
gives the matrix of its rows, up to a blank line, and nothing else gives a matrix. -/
structure EntersMatrix (ask : Terminal → Option RatMatrix × Terminal) : Prop where
  drops : ∀ terminal terminal' : Terminal,
    DropsRefused judgeRow [] terminal.typed terminal'.typed →
      (ask terminal).1 = (ask terminal').1 ∧ (ask terminal).2.typed = (ask terminal').2.typed
  matrix : ∀ (terminal : Terminal) (lines : List String), lines ≠ [] →
    RowsThenBlank (kept judgeRow [] terminal.typed) lines →
      ∃ m, (ask terminal).1 = some m ∧ Enters lines m
  cancelled : ∀ terminal : Terminal,
    (∀ lines, RowsThenBlank (kept judgeRow [] terminal.typed) lines → lines = []) →
      (ask terminal).1 = none

/-- The prompt for a matrix enters it from the accepted lines. -/
theorem entersMatrix_readMatrix (title : String) : EntersMatrix (readMatrix title) where
  drops _ _ h := h.collect_eq "  " rfl rfl
  matrix terminal lines hne h := by
    obtain ⟨after, haccepts, hentered⟩ := entered_of_rowsThenBlank h
    obtain ⟨m, hmatrix, henters⟩ := matrixOfRows_of_accepts haccepts hne
    exact ⟨m, by rw [fst_readMatrix, hentered, hmatrix], henters⟩
  cancelled terminal h := by
    rw [fst_readMatrix]
    by_contra hsome
    obtain ⟨lines, hlines⟩ := exists_rowsThenBlank hsome
    cases h lines hlines
    obtain ⟨after, ⟨⟩, hnone⟩ := entered_of_rowsThenBlank hlines
    exact hsome hnone

/-! ## Scalars -/

/-- What comes of the line of a scalar: it is blank, or it is read, or it cannot be read. -/
inductive JudgesScalar (line : String) : Verdict Unit Fraction → Prop
  | blank (hline : isBlankLine line = true) : JudgesScalar line (.finished none)
  | read {value : Fraction} (hline : isBlankLine line = false)
      (hparse : Fraction.parse (Text.strip line) = .ok value) :
      JudgesScalar line (.finished (some value))
  | unread {failure : Failure} (hline : isBlankLine line = false)
      (hparse : Fraction.parse (Text.strip line) = .error failure) :
      JudgesScalar line (.refused failure.text)

/-- A line is judged by whether it is blank or a number. -/
theorem judgeScalar_cases (line : String) : JudgesScalar line (judgeScalar () line) := by
  rw [judgeScalar]
  by_cases hblank : isBlankLine line = true
  · rw [if_pos hblank]
    exact .blank hblank
  · rw [if_neg hblank]
    rw [Bool.not_eq_true] at hblank
    cases hparse : Fraction.parse (Text.strip line) with
    | error failure => exact .unread hblank hparse
    | ok value => exact .read hblank hparse

/-- A line is refused exactly if it is not blank and no number. -/
theorem judgeScalar_refused_iff (line : String) :
    (∃ message, judgeScalar () line = .refused message) ↔
      isBlankLine line = false ∧ ∃ failure, Fraction.parse (Text.strip line) = .error failure := by
  have hcases := judgeScalar_cases line
  generalize judgeScalar () line = verdict at hcases
  cases hcases with
  | blank hline => simp [hline]
  | read hline hparse => simp [hparse]
  | unread hline hparse => simp [hline, hparse]

/-- The scalar of what is typed: that of the first line, unless this is blank. -/
inductive ScalarTyped : List Typed → Option Fraction → Prop
  | line {line : String} {value : Fraction} (rest : List Typed) (hline : isBlankLine line = false)
      (hparse : Fraction.parse (Text.strip line) = .ok value) :
      ScalarTyped (.line line :: rest) (some value)
  | blank {line : String} (rest : List Typed) (hline : isBlankLine line = true) :
      ScalarTyped (.line line :: rest) none
  | interrupt (rest : List Typed) : ScalarTyped (.interrupt :: rest) none
  | ended : ScalarTyped [] none

/-- Without the lines that are refused, the rest enters the same scalar. -/
theorem scalarTyped_kept (typed : List Typed) :
    ScalarTyped (kept judgeScalar () typed) (entered judgeScalar () typed).1 := by
  induction typed with
  | nil => exact .ended
  | cons first rest ih =>
    cases first with
    | interrupt => exact .interrupt rest
    | line line =>
      have hcases := judgeScalar_cases line
      rw [kept, entered]
      generalize judgeScalar () line = verdict at hcases
      cases hcases with
      | blank hline => exact .blank rest hline
      | read hline hparse => exact .line rest hline hparse
      | unread => exact ih

/-- A prompt for a scalar to which refused lines make no difference. The first line that is left
without them gives the scalar, unless it is blank. -/
structure EntersScalar (ask : Terminal → Option Fraction × Terminal) : Prop where
  drops : ∀ terminal terminal' : Terminal,
    DropsRefused judgeScalar () terminal.typed terminal'.typed →
      (ask terminal).1 = (ask terminal').1 ∧ (ask terminal).2.typed = (ask terminal').2.typed
  scalar : ∀ terminal : Terminal,
    ScalarTyped (kept judgeScalar () terminal.typed) (ask terminal).1

/-- The prompt for a scalar enters it from the first accepted line. -/
theorem entersScalar_readScalar (name : String) : EntersScalar (readScalar name) where
  drops _ _ h := h.collect_eq (name ++ " = ") rfl rfl
  scalar terminal := by
    have hvalue : (readScalar name terminal).1 = (entered judgeScalar () terminal.typed).1 :=
      congrArg Prod.fst (collect_eq_entered (name ++ " = ") judgeScalar () _)
    rw [hvalue]
    exact scalarTyped_kept terminal.typed

/-! ## Prompts -/

/-- The failures of a text that is no fraction are those that a prompt answers: a zero denominator,
a text that is not of the format, and too many digits. -/
theorem parse_failure {text : String} {failure : Failure}
    (h : Fraction.parse text = .error failure) :
    failure.ReportOf [.zeroDivision] ∨ failure = .fault (.notFraction text) ∨
      ∃ digits, failure = .fault (.tooLongToRead digits) := by
  have hcases := Fraction.parse_cases text
  rw [h] at hcases
  cases hcases with
  | malformed => exact .inr (.inl rfl)
  | long => exact .inr (.inr ⟨_, rfl⟩)
  | overZero => exact .inl (List.mem_singleton.2 rfl)

/-- Refused lines make no difference at the prompts for matrices and scalars. The lines that are
refused are those with a field that cannot be read, and rows of another width than the first one.
Nothing else can go wrong: a field is read, or fails in a way that is answered, and the rows that
were accepted are always put together to a matrix. -/
theorem refused_lines_leave_no_trace :
    (∀ name, EntersMatrix (definer.matrix name)) ∧ EntersMatrix definer.anonymous ∧
      (∀ name, EntersScalar (definer.scalar name)) ∧
      (∀ typed, DropsRefused judgeRow [] typed (kept judgeRow [] typed) ∧
        DropsRefused judgeScalar () typed (kept judgeScalar () typed)) ∧
      (∀ rows line, (∃ message, judgeRow rows line = .refused message) ↔
        isBlankLine line = false ∧
          ((∃ field ∈ Text.fields line, ∃ failure, Fraction.parse field = .error failure) ∨
            ∃ first ∈ rows.head?, (Text.fields line).length ≠ first.length)) ∧
      (∀ line, (∃ message, judgeScalar () line = .refused message) ↔
        isBlankLine line = false ∧
          ∃ failure, Fraction.parse (Text.strip line) = .error failure) ∧
      (∀ lines rows, Accepts judgeRow [] lines rows →
        ∃ m, RatMatrix.ofRows (rows.map fun row => row.map .fraction) = .ok m ∧
          Enters lines m) ∧
      ∀ text failure, Fraction.parse text = .error failure →
        failure.ReportOf [.zeroDivision] ∨ failure = .fault (.notFraction text) ∨
          ∃ digits, failure = .fault (.tooLongToRead digits) :=
  ⟨fun _ => entersMatrix_readMatrix _, entersMatrix_readMatrix _, entersScalar_readScalar,
    fun typed => ⟨dropsRefused_kept _ _ typed, dropsRefused_kept _ _ typed⟩,
    judgeRow_refused_iff, judgeScalar_refused_iff, fun _ _ => ofRows_of_accepts,
    fun _ _ => parse_failure⟩

/-- A row over zero and a row that is too short are refused. -/
theorem refused_lines_leave_no_trace_square :
    let typed : List Typed :=
      [.line "1 2", .line "1/0 3", .line "5", .line "2/4 -3", .line " ", .line "A"]
    kept judgeRow [] typed = [.line "1 2", .line "2/4 -3", .line " ", .line "A"] ∧
      ∃ m, (definer.matrix "A" (.start typed)).1 = some m ∧ Enters ["1 2", "2/4 -3"] m := by
  intro typed
  have hkept : kept judgeRow [] typed = [.line "1 2", .line "2/4 -3", .line " ", .line "A"] := by
    decide +kernel
  have hrows : RowsThenBlank (kept judgeRow [] typed) ["1 2", "2/4 -3"] := by
    rw [hkept]
    exact .row (by decide) (.row (by decide) (.blank _ (by decide)))
  exact ⟨hkept, (refused_lines_leave_no_trace.1 "A").matrix (.start typed) _ (by simp) hrows⟩

end Entry

end MatrixCalc
