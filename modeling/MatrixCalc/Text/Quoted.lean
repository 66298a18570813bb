import MatrixCalc.Text.Printable

/-!
# Quoted text

Messages show a text between quotation marks. The apostrophe is the mark, unless the text holds
an apostrophe and no double quotation mark. Inside, the mark and the backslash are written after
a backslash, tab and line ends by a letter, and other unprintable characters by their code point.
-/

namespace MatrixCalc.Text

/-- The apostrophe, which is the usual quotation mark. -/
def apostrophe : Char := '\x27'

/-- The double quotation mark. -/
def doubleQuote : Char := '\x22'

/-- The backslash. -/
def backslash : Char := '\x5c'

/-- A number in lower case hexadecimal, with zeros in front up to `width` digits. -/
def hexadecimal (width number : Nat) : List Char :=
  let digits := Nat.toDigits 16 number
  List.replicate (width - digits.length) '0' ++ digits

/-- A character by its code point, in the shortest of the three forms that can hold it. -/
def codePointEscape (char : Char) : List Char :=
  if char.toNat < 0x100 then backslash :: 'x' :: hexadecimal 2 char.toNat
  else if char.toNat < 0x10000 then backslash :: 'u' :: hexadecimal 4 char.toNat
  else backslash :: 'U' :: hexadecimal 8 char.toNat

/-- A character as it stands between two of the quotation marks `mark`. -/
def quotedChar (mark char : Char) : List Char :=
  if char = mark || char = backslash then [backslash, char]
  else if char = '\t' then [backslash, 't']
  else if char = '\n' then [backslash, 'n']
  else if char = '\r' then [backslash, 'r']
  else if isPrintable char then [char]
  else codePointEscape char

/-- The quotation mark for a text. -/
def quotationMark (chars : List Char) : Char :=
  if chars.contains apostrophe && !chars.contains doubleQuote then doubleQuote else apostrophe

/-- A text between quotation marks. -/
def quote (text : String) : String :=
  let mark := quotationMark text.toList
  String.ofList (mark :: text.toList.flatMap (quotedChar mark) ++ [mark])

end MatrixCalc.Text
