import MatrixCalc.Text.Width

/-!
# Laying out text for the terminal

Text is printed without the characters that move the cursor back or ring the bell, and with each
tab widened to the next multiple of eight columns of its line. The columns are counted field by
field, where a field is what stands before a tab together with the first space that is printed for
the tab. A line may have any number of columns: the terminal is assumed to be wide enough for it,
and no line break is put in.
-/

namespace MatrixCalc.Text

/-- The characters that are left out in print: bell, backspace, vertical tab, form feed and
carriage return. -/
def isDropped (char : Char) : Bool :=
  [0x7, 0x8, 0xB, 0xC, 0xD].contains char.toNat

/-- The distance between two tab stops, in columns. -/
def tabStop : Nat := 8

/-- The first tab stop that is not before a column. -/
def nextStop (column : Nat) : Nat :=
  (column + (tabStop - 1)) / tabStop * tabStop

/-- The pieces of a text between the places where a character stands; one more than there are such
places. -/
def pieces (separator : Char) : List Char → List (List Char)
  | [] => [[]]
  | char :: rest =>
      if char = separator then [] :: pieces separator rest
      else match pieces separator rest with
        | [] => [[char]]
        | piece :: others => (char :: piece) :: others

/-- The fields of a line from `column` on, with spaces instead of the tabs between them. -/
def spread (column : Nat) : List (List Char) → List Char
  | [] => []
  | [last] => last
  | field :: rest =>
      let reached := column + columns (field ++ [' '])
      let next := nextStop reached
      field ++ ' ' :: List.replicate (next - reached) ' ' ++ spread next rest

/-- A line with its tabs widened. -/
def widenTabs (line : List Char) : List Char :=
  spread 0 (pieces '\t' line)

/-- The text as it appears in print. -/
def layout (text : String) : String :=
  let kept := text.toList.filter fun char => !isDropped char
  String.ofList (List.intercalate ['\n'] ((pieces '\n' kept).map widenTabs))

end MatrixCalc.Text
