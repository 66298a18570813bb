import MatrixCalc.Fraction.Text

/-!
# Mixed arithmetic

Operators between fractions, plain integers and plain texts. Beside a fraction an integer stands
on the right of every operator and on the left of `+` and `*`; no operator joins a fraction and a
text. Integers and texts also have operators of their own: integers add and multiply, texts join
and repeat. The operations of a fraction, in contrast to the operators, take nothing but fractions.
-/

namespace MatrixCalc

/-- An operand of mixed arithmetic. -/
inductive Mixed where
  | fraction (value : Fraction)
  | integer (value : Int)
  | text (value : String)
  deriving DecidableEq

namespace Mixed

/-- The name of an operand's type in messages. -/
def typeName : Mixed → String
  | fraction _ => "Rational"
  | integer _ => "int"
  | text _ => "str"

/-! ## Operators -/

/-- An operator between operands that it does not join. -/
def refuse (operator : String) (left right : Mixed) : Except Failure Mixed :=
  .error (.fault (.unsupported operator left.typeName right.typeName))

/-- A text as often as an integer says, and not at all if it is below zero. -/
def repeated (text : String) (count : Int) : String :=
  count.toNat.repeat (· ++ text) ""

/-- The sum. With an integer on the left of a fraction the fraction is still the first summand. -/
def add : Mixed → Mixed → Except Failure Mixed
  | fraction a, fraction b => .ok (fraction (a.add b))
  | fraction a, integer b => .ok (fraction (a.add (.ofInt b)))
  | integer a, fraction b => .ok (fraction (b.add (.ofInt a)))
  | integer a, integer b => .ok (integer (a + b))
  | text a, text b => .ok (text (a ++ b))
  | text _, right => .error (.fault (.notConcatenable right.typeName))
  | left, right => refuse "+" left right

/-- The difference. -/
def sub : Mixed → Mixed → Except Failure Mixed
  | fraction a, fraction b => .ok (fraction (a.sub b))
  | fraction a, integer b => .ok (fraction (a.sub (.ofInt b)))
  | integer a, integer b => .ok (integer (a - b))
  | left, right => refuse "-" left right

/-- The product. With an integer on the left of a fraction the fraction is still the first
factor. -/
def mul : Mixed → Mixed → Except Failure Mixed
  | fraction a, fraction b => .ok (fraction (a.mul b))
  | fraction a, integer b => .ok (fraction (a.mul (.ofInt b)))
  | integer a, fraction b => .ok (fraction (b.mul (.ofInt a)))
  | integer a, integer b => .ok (integer (a * b))
  | text a, integer b => .ok (text (repeated a b))
  | integer a, text b => .ok (text (repeated b a))
  | text _, right => .error (.fault (.notRepeatable right.typeName))
  | left, text _ => .error (.fault (.notRepeatable left.typeName))

/-- The quotient. The quotient of two plain integers is no operand of this arithmetic. -/
def div : Mixed → Mixed → Except Failure Mixed
  | fraction a, fraction b => (a.div b).map fraction
  | fraction a, integer b => (a.div (.ofInt b)).map fraction
  | integer a, integer b =>
      if b = 0 then .error (.fault .integerOverZero) else refuse "/" (integer a) (integer b)
  | left, right => refuse "/" left right

/-- The opposite. -/
def neg : Mixed → Except Failure Mixed
  | fraction a => .ok (fraction a.neg)
  | integer a => .ok (integer (-a))
  | text a => .error (.fault (.notSigned (text a).typeName))

/-- Whether two operands are equal. Numbers are equal if their values are, and a text equals no
number. -/
def same : Mixed → Mixed → Bool
  | fraction a, fraction b => decide (a.Equiv b)
  | fraction a, integer b => decide (a.Equiv (.ofInt b))
  | integer a, fraction b => decide (Fraction.Equiv (.ofInt a) b)
  | integer a, integer b => a = b
  | text a, text b => a = b
  | _, _ => false

/-- The number of operands of which no two are equal. -/
def countDistinct : List Mixed → Nat
  | [] => 0
  | first :: rest => countDistinct rest + if rest.any first.same then 0 else 1

/-- A key by which operands are looked up. -/
inductive Key where
  | number (key : Int × Option Int)
  | text (value : String)
  deriving DecidableEq

/-- The key of an operand. That of an integer is its residue, and the empty text has that of the
integer zero. -/
def key : Mixed → Key
  | fraction a => .number a.key
  | integer a => .number (Fraction.residue a, none)
  | text a => if a.isEmpty then .number (Fraction.residue 0, none) else .text a

/-! ## Operations that only fractions have -/

/-- The operand as a fraction, for an operation of this name. -/
def only (operation : String) : Mixed → Except Failure Fraction
  | fraction value => .ok value
  | other => .error (.fault (.noOperation other.typeName operation))

/-- The sum of two fractions. The first part of the right one that is needed is its denominator. -/
def sum (left right : Mixed) : Except Failure Fraction := do
  let a ← left.only "add"
  let b ← right.only "_d"
  .ok (a.add b)

/-- The product of two fractions. The first part of the right one that is needed is its
numerator. -/
def product (left right : Mixed) : Except Failure Fraction := do
  let a ← left.only "mul"
  let b ← right.only "_n"
  .ok (a.mul b)

/-- The quotient of two fractions, which starts from the reciprocal of the right one. -/
def quotient (left right : Mixed) : Except Failure Fraction := do
  let a ← left.only "div"
  let b ← right.only "reciprocal"
  a.div b

/-- The multiplicative inverse of a fraction. -/
def reciprocal (operand : Mixed) : Except Failure Fraction :=
  operand.only "reciprocal" >>= Fraction.reciprocal

/-- The opposite of a fraction. -/
def opposite (operand : Mixed) : Except Failure Fraction :=
  (operand.only "neg").map Fraction.neg

/-- A fraction in lowest terms. -/
def reduce (operand : Mixed) : Except Failure Fraction :=
  (operand.only "reduce").map Fraction.reduce

/-- Whether a fraction is zero. -/
def isZero (operand : Mixed) : Except Failure Bool :=
  (operand.only "is_zero").map Fraction.isZero

/-- Whether a fraction has a whole value. -/
def isWhole (operand : Mixed) : Except Failure Bool :=
  (operand.only "is_whole").map Fraction.isWhole

/-- The integer that a fraction equals. -/
def toInt (operand : Mixed) : Except Failure Int :=
  operand.only "to_int" >>= Fraction.toInt

/-- A fraction in lowest terms as text. -/
def render (operand : Mixed) : Except Failure String :=
  operand.reduce >>= Fraction.write

/-! ## Operations that numbers have, or all operands -/

/-- The numerator and the denominator of a number. -/
def parts : Mixed → Except Failure (Int × Nat)
  | fraction a => .ok (a.num, a.den)
  | integer a => .ok (a, 1)
  | text a => .error (.fault (.noOperation (text a).typeName "numerator"))

/-- An operand as text. -/
def write : Mixed → Except Failure String
  | fraction a => a.write
  | integer a => Numeral.write a
  | text a => .ok a

/-- An operand as text that shows what it is made of. -/
def describe : Mixed → Except Failure String
  | fraction a => a.describe
  | integer a => Numeral.write a
  | text a => .ok (Text.quote a)

end Mixed

end MatrixCalc
