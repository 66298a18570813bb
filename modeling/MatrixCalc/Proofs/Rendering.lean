import MatrixCalc.Proofs.RatMatrix.Box
import MatrixCalc.Value

/-!
# Values as they are shown

A value is shown if its numbers keep to the digit limit (`Value.render_eq`), and its text appears
in print as it is (`Value.layout_text`).
-/

namespace MatrixCalc

open Text (IsPrintableLine layout)

namespace RatMatrix

/-- The digits of a number are a printable line. -/
theorem isPrintableLine_repr (value : Nat) : IsPrintableLine value.repr := by
  intro char hchar
  have hlow := (Token.isNumeral_iff.1 (Numeral.isNumeral_of_mem_repr hchar)).1
  omega

/-- A box appears in print as it is drawn. -/
theorem layout_box (m : RatMatrix) : layout m.box = m.box := by
  by_cases h : m.rows = 0 ∨ m.cols = 0
  · rw [box_of_empty h]
    refine Text.layout_line (IsPrintableLine.append ?_ (by decide))
    refine IsPrintableLine.append ?_ (isPrintableLine_repr _)
    exact isPrintableLine_between (by decide) (isPrintableLine_repr _) (by decide)
  · rw [box_of_nonempty (by omega) (by omega)]
    exact Text.layout_intercalate (by simp [boxLines]) fun _ => isPrintableLine_of_mem_boxLines

/-- The box of a matrix with entries fits if these do in lowest terms. -/
theorem boxFits_of_nonempty {m : RatMatrix} (hrows : 0 < m.rows) (hcols : 0 < m.cols) :
    m.boxFits = m.reduce.fits := by
  simp [boxFits, hrows.ne', hcols.ne']

/-- A box starts with its corner, and the description of a matrix without entries with a
bracket. -/
theorem head?_box (m : RatMatrix) :
    m.box.toList.head? = some (if m.rows = 0 ∨ m.cols = 0 then '[' else '┌') := by
  by_cases h : m.rows = 0 ∨ m.cols = 0
  · rw [box_of_empty h, if_pos h]
    simp only [String.toList_append, List.append_assoc]
    rfl
  · obtain ⟨second, more, hlines⟩ := List.exists_cons_of_length_pos
      (l := m.boxLines.tail) (by simp [boxLines])
    have hbox : m.boxLines = ("┌ " ++ Text.spaces (innerWidth m.columnWidths) ++ " ┐") ::
        second :: more := by
      rw [← hlines]
      rfl
    rw [box_of_nonempty (by omega) (by omega), if_neg h, hbox, String.intercalate_cons_cons]
    simp only [String.toList_append, List.append_assoc]
    rfl

/-- A run of digits in front of something else determines the number. -/
theorem repr_append_inj {a b : Nat} {x y : List Char}
    (hx : ∀ char ∈ x.head?, Token.isNumeral char = false)
    (hy : ∀ char ∈ y.head?, Token.isNumeral char = false)
    (h : a.repr.toList ++ x = b.repr.toList ++ y) : a = b ∧ x = y := by
  have hdigits := congrArg (List.takeWhile Token.isNumeral) h
  rw [Token.takeWhile_append_of_stop (fun _ => Numeral.isNumeral_of_mem_repr) hx,
    Token.takeWhile_append_of_stop (fun _ => Numeral.isNumeral_of_mem_repr) hy] at hdigits
  rw [hdigits] at h
  have hvalue := congrArg Numeral.ofDigits hdigits
  rw [Numeral.ofDigits_repr, Numeral.ofDigits_repr] at hvalue
  exact ⟨hvalue, List.append_cancel_left h⟩

/-- The description of a matrix without entries determines its size. -/
theorem size_eq_of_box_eq {m n : RatMatrix} (hm : m.rows = 0 ∨ m.cols = 0)
    (hn : n.rows = 0 ∨ n.cols = 0) (h : m.box = n.box) :
    m.rows = n.rows ∧ m.cols = n.cols := by
  have hchars := congrArg String.toList h
  simp only [box_of_empty hm, box_of_empty hn, String.toList_append, List.append_assoc] at hchars
  obtain ⟨hrows, hchars⟩ := repr_append_inj (by rintro _ ⟨⟩; decide) (by rintro _ ⟨⟩; decide)
    (List.append_cancel_left hchars)
  obtain ⟨hcols, -⟩ := repr_append_inj (by rintro _ ⟨⟩; decide) (by rintro _ ⟨⟩; decide)
    (List.append_cancel_left hchars)
  exact ⟨hrows, hcols⟩

end RatMatrix

/-- Layout changes nothing in the text of a fraction. -/
theorem Fraction.layout_text (a : Fraction) : layout a.text = a.text := by
  refine Text.layout_line fun char hchar => ?_
  have hlow := (isTextChar_of_mem_text hchar).toNat_bounds.1
  omega

namespace Value

/-- Whether the numbers in a value, as it is shown, keep to the digit limit. -/
def fits : Value → Bool
  | .scalar value => value.reduce.fits
  | .matrix value => value.boxFits

/-- The text by which a value is shown. -/
def text : Value → String
  | .scalar value => value.reduce.text
  | .matrix value => value.box

/-- A value is shown by its text, unless a number in it is too long. -/
theorem render_eq (value : Value) :
    value.render = if value.fits then .ok value.text else .error (.fault .tooLongToWrite) := by
  cases value <;> rfl

/-- The text of a value appears in print as it is. -/
theorem layout_text (value : Value) : layout value.text = value.text := by
  cases value with
  | scalar value => exact value.reduce.layout_text
  | matrix value => exact value.layout_box

/-- A scalar is not shown like a matrix. -/
theorem text_scalar_ne_matrix (a : Fraction) (m : RatMatrix) :
    (scalar a).text ≠ (matrix m).text := by
  intro h
  have hhead := m.head?_box
  rw [← show a.reduce.text = m.box from h] at hhead
  have htext := Fraction.isTextChar_of_mem_text (List.mem_of_mem_head? hhead)
  split at htext <;> exact absurd htext (by decide)

end Value

end MatrixCalc
