import MatrixCalc.Text.CharSet

/-!
# Blanks

The blank characters of Unicode, and the two ways in which a typed line is cut at them: `strip`
drops them from both ends, `fields` keeps the runs between them.
-/

namespace MatrixCalc.Text

/-- The blank characters: the spaces, the line and paragraph breaks, the horizontal and vertical
tabs, and the four information separators U+001C to U+001F. -/
def blanks : CharSet :=
  [(0x9, 0xD), (0x1C, 0x20), (0x85, 0x85), (0xA0, 0xA0), (0x1680, 0x1680), (0x2000, 0x200A),
   (0x2028, 0x2029), (0x202F, 0x202F), (0x205F, 0x205F), (0x3000, 0x3000)]

/-- Whether a character is blank. -/
def isBlank (char : Char) : Bool :=
  blanks.has char

/-- The characters from the first non-blank one on. -/
def skipBlanks (chars : List Char) : List Char :=
  chars.dropWhile isBlank

/-- The characters without the blanks at both ends. -/
def stripBlanks (chars : List Char) : List Char :=
  (skipBlanks (skipBlanks chars).reverse).reverse

/-- The text without the blanks at both ends. -/
def strip (text : String) : String :=
  String.ofList (stripBlanks text.toList)

/-- The maximal runs of characters that are not blank, in order. -/
def runs : List Char → List (List Char)
  | [] => []
  | char :: rest =>
      if isBlank char then runs rest
      else if rest.head?.all isBlank then [char] :: runs rest
      else match runs rest with
        | [] => [[char]]
        | run :: others => (char :: run) :: others

/-- The fields of a line: its maximal runs of characters that are not blank. -/
def fields (line : String) : List String :=
  (runs line.toList).map String.ofList

end MatrixCalc.Text
