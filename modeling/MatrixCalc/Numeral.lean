import MatrixCalc.Report
import MatrixCalc.Text.Blank
import MatrixCalc.Text.Digit

/-!
# Integers as text

Integers in decimal notation, with a limit on the number of digits in both directions. Reading
counts every digit that is written, zeros in front included. `write` is the notation with the
limit, `toText` the notation alone.
-/

namespace MatrixCalc.Numeral

/-- An integer in decimal notation: a minus sign if it is below zero, then its digits. -/
def toText (value : Int) : String :=
  if value < 0 then "-" ++ value.natAbs.repr else value.natAbs.repr

/-- An integer in decimal notation, unless it has more digits than the limit. -/
def write (value : Int) : Except Failure String :=
  if fits value then .ok (toText value) else .error (.fault .tooLongToWrite)

/-- The number that a run of digits denotes. -/
def ofDigits (digits : List Char) : Nat :=
  digits.foldl (fun value char => 10 * value + (Text.digitValue? char).getD 0) 0

/-- The number that a run of digits denotes, unless it is longer than the limit. -/
def readDigits (digits : List Char) : Except Failure Nat :=
  if digits.length ≤ digitLimit then .ok (ofDigits digits)
  else .error (.fault (.tooLongToRead digits.length))

/-- A number with the sign that stood before it. -/
def applySign (negative : Bool) (value : Nat) : Int :=
  if negative then -value else value

/-- Takes a sign off the front, and says whether it was a minus sign. -/
def readSign : List Char → Bool × List Char
  | '+' :: rest => (false, rest)
  | '-' :: rest => (true, rest)
  | chars => (false, chars)

/-- Whether a character may stand before or after an integer. The four information separators are
blank but not allowed there. -/
def isPadding (char : Char) : Bool :=
  Text.isBlank char && !(0x1C ≤ char.toNat && char.toNat ≤ 0x1F)

/-- Whether the underscores in a run of digits and underscores each stand between two digits. -/
def separatorsPlaced : List Char → Bool
  | [] => true
  | '_' :: _ => false
  | [_] => true
  | _ :: '_' :: rest => !rest.isEmpty && separatorsPlaced rest
  | _ :: rest => separatorsPlaced rest

/-- Reads an integer: padding, a sign, digits with single underscores between them, padding. -/
def read (text : String) : Except Failure Int := do
  let (negative, unsigned) := readSign (text.toList.dropWhile isPadding)
  let inNumeral := fun char => Text.isDigit char || char = '_'
  let numeral := unsigned.takeWhile inNumeral
  let rest := unsigned.dropWhile inNumeral
  if numeral.isEmpty || !separatorsPlaced numeral then
    .error (.fault (.notInteger text))
  else
    let value ← readDigits (numeral.filter fun char => char ≠ '_')
    if rest.all isPadding then .ok (applySign negative value)
    else .error (.fault (.notInteger text))

end MatrixCalc.Numeral
