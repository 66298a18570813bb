import MatrixCalc.Syntax.Basic
import MatrixCalc.Numeral

/-!
# Expressions as text

An expression is written with one space around each operator and after each comma, and no other
space.
-/

namespace MatrixCalc

mutual
/-- An expression as text, with the variable behind the arrow if it has one. -/
def Expr.text : Expr → String
  | .mk sum none => sum.text
  | .mk sum (some target) => sum.text ++ " -> " ++ target.text

/-- A sum as text. -/
def Sum.text : Sum → String
  | .term last => last.text
  | .join before op last => before.text ++ " " ++ op.sign ++ " " ++ last.text

/-- A term as text. -/
def Term.text : Term → String
  | .factor last => last.text
  | .join before op last => before.text ++ " " ++ op.sign ++ " " ++ last.text

/-- A factor as text. -/
def Factor.text : Factor → String
  | .mk true operand => "-" ++ operand.text
  | .mk false operand => operand.text

/-- An operand as text. -/
def Operand.text : Operand → String
  | .number value => Numeral.toText value
  | .variable ref => ref.text
  | .group expr => "(" ++ expr.text ++ ")"
  | .call function .nil => function ++ "()"
  | .call function (.cons first rest) => function ++ "(" ++ first.text ++ rest.tailText ++ ")"

/-- Arguments as text, each behind a comma. -/
def Arguments.tailText : Arguments → String
  | .nil => ""
  | .cons first rest => ", " ++ first.text ++ rest.tailText
end

mutual
/-- Whether the numbers in an expression keep to the digit limit. -/
def Expr.fits : Expr → Bool
  | .mk sum _ => sum.fits

@[inherit_doc Expr.fits]
def Sum.fits : Sum → Bool
  | .term last => last.fits
  | .join before _ last => before.fits && last.fits

@[inherit_doc Expr.fits]
def Term.fits : Term → Bool
  | .factor last => last.fits
  | .join before _ last => before.fits && last.fits

@[inherit_doc Expr.fits]
def Factor.fits : Factor → Bool
  | .mk _ operand => operand.fits

@[inherit_doc Expr.fits]
def Operand.fits : Operand → Bool
  | .number value => Numeral.fits value
  | .variable _ => true
  | .group expr => expr.fits
  | .call _ supplied => supplied.fits

@[inherit_doc Expr.fits]
def Arguments.fits : Arguments → Bool
  | .nil => true
  | .cons first rest => first.fits && rest.fits
end

/-- An expression as text, unless a number in it is too long. -/
def Expr.write (expr : Expr) : Except Failure String :=
  if expr.fits then .ok expr.text else .error (.fault .tooLongToWrite)

end MatrixCalc
