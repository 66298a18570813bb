/-!
# Padding

Filling a text up with spaces to a width, counted in characters. A text that is wider stays as it
is.
-/

namespace MatrixCalc.Text

/-- As many spaces. -/
def spaces (count : Nat) : String :=
  String.ofList (List.replicate count ' ')

/-- A text with spaces behind it up to a width. -/
def padRight (width : Nat) (text : String) : String :=
  text ++ spaces (width - text.length)

/-- A text in the middle of a width. Of an odd number of spaces, one more stands behind it. -/
def centred (width : Nat) (text : String) : String :=
  let left := (width - text.length) / 2
  spaces left ++ text ++ spaces (width - text.length - left)

@[simp] theorem length_spaces (count : Nat) : (spaces count).length = count := by
  simp [spaces]

@[simp] theorem length_padRight (width : Nat) (text : String) :
    (padRight width text).length = max width text.length := by
  simp only [padRight, String.length_append, length_spaces]
  omega

end MatrixCalc.Text
