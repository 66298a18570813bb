import MatrixCalc.Text.Blank
import Mathlib.Data.List.Basic

/-!
# The fields of a padded line

Words that are padded with blanks and separated by blanks are the fields of the line that they
make up (`fields_intercalate`).
-/

namespace MatrixCalc.Text

variable {word blanks rest : List Char}

/-- Blanks in front of a line do not count. -/
theorem runs_blanks_append (h : ∀ char ∈ blanks, isBlank char = true) (rest : List Char) :
    runs (blanks ++ rest) = runs rest := by
  induction blanks with
  | nil => rfl
  | cons first blanks ih =>
    obtain ⟨hfirst, hblanks⟩ := List.forall_mem_cons.1 h
    rw [List.cons_append, runs, if_pos hfirst, ih hblanks]

/-- A word in front of a blank, or at the end of a line, is a run of its own. -/
theorem runs_word_append (hword : ∀ char ∈ word, isBlank char = false) (hne : word ≠ [])
    (hrest : rest.head?.all isBlank = true) : runs (word ++ rest) = word :: runs rest := by
  induction word with
  | nil => exact absurd rfl hne
  | cons first more ih =>
    obtain ⟨hfirst, hmore⟩ := List.forall_mem_cons.1 hword
    cases more with
    | nil => simp [runs, hfirst, hrest]
    | cons second others =>
      have hsecond : isBlank second = false := hmore second List.mem_cons_self
      have hruns := ih hmore (List.cons_ne_nil second others)
      rw [List.cons_append, runs, hruns]
      simp [hfirst, hsecond]

/-- A word with blanks behind it, of which there is at least one before the rest of the line. -/
theorem runs_word_blanks_append (hword : ∀ char ∈ word, isBlank char = false) (hne : word ≠ [])
    (hblanks : ∀ char ∈ blanks, isBlank char = true) (hends : blanks = [] → rest = []) :
    runs (word ++ (blanks ++ rest)) = word :: runs rest := by
  have hhead : (blanks ++ rest).head?.all isBlank = true := by
    cases blanks with
    | nil => simp [hends rfl]
    | cons first more => simp [hblanks first List.mem_cons_self]
  rw [runs_word_append hword hne hhead, runs_blanks_append hblanks]

/-- A word and the blanks that pad it. -/
structure PaddedWord where
  word : String
  padding : String
  word_ne : word ≠ ""
  word_chars : ∀ char ∈ word.toList, isBlank char = false
  padding_chars : ∀ char ∈ padding.toList, isBlank char = true

/-- Padded words are the fields of a line in which blanks separate them. -/
theorem fields_intercalate {gap : String} (hgap : ∀ char ∈ gap.toList, isBlank char = true)
    (hne : gap ≠ "") (words : List PaddedWord) :
    fields (gap.intercalate (words.map fun padded => padded.word ++ padded.padding)) =
      words.map PaddedWord.word := by
  have hruns : runs (gap.toList.intercalate
      (words.map fun padded => padded.word.toList ++ padded.padding.toList)) =
        words.map fun padded => padded.word.toList := by
    induction words with
    | nil => rfl
    | cons first more ih =>
      have hword : first.word.toList ≠ [] := by simpa using first.word_ne
      cases more with
      | nil =>
        have hlast : runs _ = first.word.toList :: runs [] :=
          runs_word_blanks_append first.word_chars hword first.padding_chars fun _ => rfl
        simpa [runs] using hlast
      | cons second others =>
        have hblanks : ∀ char ∈ first.padding.toList ++ gap.toList, isBlank char = true :=
          List.forall_mem_append.2 ⟨first.padding_chars, hgap⟩
        rw [List.map_cons] at ih ⊢
        rw [List.map_cons, List.intercalate_cons_cons]
        simp only [List.append_assoc] at ih ⊢
        rw [← List.append_assoc (first.padding.toList),
          runs_word_blanks_append first.word_chars hword hblanks (by simp [hne]), ih]
        rfl
  rw [fields, String.toList_intercalate, List.map_map]
  simp only [Function.comp_def, String.toList_append, hruns, List.map_map, String.ofList_toList]

end MatrixCalc.Text
