import MatrixCalc.Text.Layout
import MatrixCalc.Text.Padding

/-!
# Texts that are printed as they are

Printing leaves out characters that move the cursor and widens tabs. A text of printable lines is
printed unchanged (`layout_intercalate`), and it can be cut into these lines again
(`splitOn_intercalate`).
-/

namespace MatrixCalc.Text

/-! ## Printable lines -/

/-- A line of visible characters and spaces. -/
def IsPrintableLine (line : String) : Prop :=
  ∀ char ∈ line.toList, 0x20 ≤ char.toNat

instance (line : String) : Decidable (IsPrintableLine line) :=
  List.decidableBAll _ line.toList

/-- Printable lines put together are a printable line. -/
theorem IsPrintableLine.append {line more : String} (h : IsPrintableLine line)
    (hmore : IsPrintableLine more) : IsPrintableLine (line ++ more) := by
  rw [IsPrintableLine, String.toList_append]
  exact List.forall_mem_append.2 ⟨h, hmore⟩

/-- The characters of joined texts are those of the texts and of what joins them. -/
theorem mem_intercalate {gap : String} {texts : List String} {char : Char}
    (h : char ∈ (gap.intercalate texts).toList) :
    char ∈ gap.toList ∨ ∃ text ∈ texts, char ∈ text.toList := by
  induction texts with
  | nil => exact absurd h List.not_mem_nil
  | cons first more ih =>
    cases more with
    | nil =>
      rw [String.intercalate_singleton] at h
      exact .inr ⟨first, List.mem_cons_self, h⟩
    | cons second others =>
      rw [String.intercalate_cons_cons, String.toList_append, String.toList_append,
        List.mem_append, List.mem_append] at h
      rcases h with (hfirst | hgap) | hmore
      · exact .inr ⟨first, List.mem_cons_self, hfirst⟩
      · exact .inl hgap
      · exact (ih hmore).imp_right fun ⟨text, htext, hchar⟩ =>
          ⟨text, List.mem_cons_of_mem first htext, hchar⟩

/-- Printable lines joined by a printable gap are a printable line. -/
theorem IsPrintableLine.intercalate {gap : String} {lines : List String}
    (hgap : IsPrintableLine gap) (h : ∀ line ∈ lines, IsPrintableLine line) :
    IsPrintableLine (gap.intercalate lines) := by
  intro char hchar
  rcases mem_intercalate hchar with hmem | ⟨line, hline, hmem⟩
  · exact hgap char hmem
  · exact h line hline char hmem

/-- Spaces are a printable line. -/
theorem isPrintableLine_spaces (count : Nat) : IsPrintableLine (spaces count) := by
  intro char hchar
  rw [spaces, String.toList_ofList] at hchar
  rw [List.eq_of_mem_replicate hchar]
  decide

/-- There is no control character in a printable line. -/
theorem IsPrintableLine.not_mem {line : String} {char : Char} (h : IsPrintableLine line)
    (hchar : char.toNat < 0x20) : char ∉ line.toList :=
  fun hmem => absurd (h char hmem) (by omega)

/-- No character of a printable line is dropped. -/
theorem IsPrintableLine.isDropped_eq_false {line : String} {char : Char} (h : IsPrintableLine line)
    (hmem : char ∈ line.toList) : isDropped char = false := by
  have hlow := h char hmem
  simp only [isDropped, List.contains_eq_mem, decide_eq_false_iff_not, List.mem_cons,
    List.not_mem_nil, or_false]
  omega

/-! ## Cutting and joining -/

/-- The pieces between separators are those of the standard library. -/
theorem pieces_eq_splitOn (separator : Char) (chars : List Char) :
    pieces separator chars = chars.splitOn separator := by
  rw [List.splitOn_eq_splitOnP]
  induction chars with
  | nil => rfl
  | cons first rest ih =>
    rw [pieces, List.splitOnP_cons_eq_if_modifyHead, ih]
    obtain ⟨piece, others, hpieces⟩ := List.exists_cons_of_ne_nil
      (List.splitOnP_ne_nil (fun char => char == separator) rest)
    by_cases h : first = separator <;> simp [h, hpieces]

/-- A text of printable lines is cut into these lines at its line breaks. -/
theorem splitOn_intercalate {lines : List String} (hne : lines ≠ [])
    (h : ∀ line ∈ lines, IsPrintableLine line) :
    ("\n".intercalate lines).toList.splitOn '\n' = lines.map String.toList := by
  rw [String.toList_intercalate]
  refine List.splitOn_intercalate '\n' ?_ (by simpa using hne)
  intro chars hchars
  obtain ⟨line, hline, rfl⟩ := List.mem_map.1 hchars
  exact (h line hline).not_mem (by decide)

/-- Without tabs nothing is widened. -/
theorem widenTabs_eq_self {chars : List Char} (h : '\t' ∉ chars) : widenTabs chars = chars := by
  have hsplit : chars.splitOn '\t' = [chars] := by
    rw [List.splitOn_eq_splitOnP]
    refine List.splitOnP_eq_singleton fun char hchar => beq_eq_false_iff_ne.2 ?_
    rintro rfl
    exact h hchar
  rw [widenTabs, pieces_eq_splitOn, hsplit]
  rfl

/-- A text of printable lines appears in print as it is. -/
theorem layout_intercalate {lines : List String} (hne : lines ≠ [])
    (h : ∀ line ∈ lines, IsPrintableLine line) :
    layout ("\n".intercalate lines) = "\n".intercalate lines := by
  have hkept : ("\n".intercalate lines).toList.filter (fun char => !isDropped char) =
      ("\n".intercalate lines).toList := by
    refine List.filter_eq_self.2 fun char hchar => ?_
    rcases mem_intercalate hchar with hbreak | ⟨line, hline, hmem⟩
    · rw [List.mem_singleton.1 hbreak]
      rfl
    · rw [(h line hline).isDropped_eq_false hmem]
      rfl
  have hwidened : (lines.map String.toList).map widenTabs = lines.map String.toList := by
    rw [List.map_map]
    exact List.map_congr_left fun line hline =>
      widenTabs_eq_self ((h line hline).not_mem (by decide))
  simp only [layout, hkept, pieces_eq_splitOn, splitOn_intercalate hne h, hwidened]
  rw [← String.toList_inj, String.toList_ofList, String.toList_intercalate]
  rfl

/-- A printable line appears in print as it is. -/
theorem layout_line {line : String} (h : IsPrintableLine line) : layout line = line := by
  have hlayout := layout_intercalate (List.cons_ne_nil line []) (by simpa using h)
  rwa [String.intercalate_singleton] at hlayout

end MatrixCalc.Text
