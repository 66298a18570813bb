import MatrixCalc.Fraction.Basic

/-!
# Fractions as text

A fraction is written `n/d`, or `n` if its denominator is one. It is read in the same form, where
either part may have a sign of its own and blanks may stand around the parts.
-/

namespace MatrixCalc.Fraction

/-- A fraction as it is stored: `n/d`, or `n` alone over one. -/
def text (a : Fraction) : String :=
  if a.den = 1 then Numeral.toText a.num
  else Numeral.toText a.num ++ "/" ++ Numeral.toText a.den

/-- Whether the numbers in the text of a fraction keep to the digit limit. -/
def fits (a : Fraction) : Bool :=
  Numeral.fits a.num && Numeral.fits a.den

/-- The text of a fraction, unless one of its numbers is too long. -/
def write (a : Fraction) : Except Failure String :=
  if a.fits then .ok a.text else .error (.fault .tooLongToWrite)

/-- The numerator and the denominator as a description of the stored form. -/
def describe (a : Fraction) : Except Failure String :=
  if a.fits then
    .ok ("Rational(" ++ Numeral.toText a.num ++ ", " ++ Numeral.toText a.den ++ ")")
  else .error (.fault .tooLongToWrite)

/-- A sign and the digits behind it. -/
structure SignedDigits where
  negative : Bool
  digits : List Char
  deriving DecidableEq, Repr

/-- The integer that is written, unless it has too many digits. -/
def SignedDigits.value (numeral : SignedDigits) : Except Failure Int :=
  (Numeral.readDigits numeral.digits).map (Numeral.applySign numeral.negative)

/-- Splits one part off the front: blanks, a sign, at least one digit, blanks. -/
def splitPart (chars : List Char) : Option (SignedDigits × List Char) :=
  let (negative, unsigned) := Numeral.readSign (Text.skipBlanks chars)
  let digits := unsigned.takeWhile Text.isDigit
  if digits.isEmpty then none
  else some (⟨negative, digits⟩, Text.skipBlanks (unsigned.dropWhile Text.isDigit))

/-- Splits a text into its one or two parts, the second behind a slash. -/
def splitParts (chars : List Char) : Option (SignedDigits × Option SignedDigits) :=
  match splitPart chars with
  | some (num, []) => some (num, none)
  | some (num, '/' :: rest) =>
      match splitPart rest with
      | some (den, []) => some (num, some den)
      | _ => none
  | _ => none

/-- Reads a fraction. The numerator is read before the denominator, and nothing is reduced. -/
def parse (text : String) : Except Failure Fraction :=
  match splitParts text.toList with
  | none => .error (.fault (.notFraction text))
  | some (num, none) => num.value.map ofInt
  | some (num, some den) => do
      let numValue ← num.value
      let denValue ← den.value
      make numValue denValue

/-- The integer that a fraction with a whole value equals. -/
def toInt (a : Fraction) : Except Failure Int :=
  if a.isWhole then .ok (a.num / a.den)
  else a.write.bind fun shown => .error (.fault (.notWhole shown))

end MatrixCalc.Fraction
