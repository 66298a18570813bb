import MatrixCalc.Report
import MatrixCalc.Numeral

/-!
# Fractions

A fraction is a numerator over a positive denominator, kept as it was computed: sums and products
multiply denominators and look for no common divisor, and `reduce` brings a fraction to lowest
terms when that is wanted. Two fractions with the same value may therefore differ;
`Fraction.Equiv` compares values.
-/

namespace MatrixCalc

/-- An integer over a positive integer, not necessarily in lowest terms. -/
structure Fraction where
  num : Int
  den : Nat
  den_pos : 0 < den
  deriving DecidableEq

namespace Fraction

/-- The greatest common divisor of two natural numbers, by repeated division. -/
def euclid (a b : Nat) : Nat :=
  if _h : b = 0 then a else euclid b (a % b)
termination_by b
decreasing_by exact Nat.mod_lt _ (Nat.pos_of_ne_zero _h)

theorem euclid_eq_gcd (a b : Nat) : euclid a b = Nat.gcd a b := by
  fun_induction euclid a b with
  | case1 a => simp
  | case2 a b _ ih => rw [ih, Nat.gcd_comm, ← Nat.gcd_rec, Nat.gcd_comm]

/-- The greatest common divisor of two integers, which is never negative. -/
def gcd (a b : Int) : Nat :=
  euclid a.natAbs b.natAbs

theorem gcd_eq (a b : Int) : gcd a b = Int.gcd a b :=
  euclid_eq_gcd _ _

/-- An integer as a fraction. -/
def ofInt (value : Int) : Fraction :=
  ⟨value, 1, Nat.one_pos⟩

instance : OfNat Fraction 0 := ⟨ofInt 0⟩

instance : OfNat Fraction 1 := ⟨ofInt 1⟩

instance : Inhabited Fraction := ⟨0⟩

/-- A numerator over a denominator of either sign: the sign moves to the numerator, and nothing
else is done. Zero is refused as a denominator. -/
def make (num den : Int) : Except Failure Fraction :=
  if h : den = 0 then .error (Failure.because (.zeroDenominator num))
  else .ok ⟨den.sign * num, den.natAbs, Int.natAbs_pos.2 h⟩

/-- The sum, over the product of the denominators. -/
def add (a b : Fraction) : Fraction :=
  ⟨a.num * b.den + b.num * a.den, a.den * b.den, Nat.mul_pos a.den_pos b.den_pos⟩

/-- The product of the numerators over the product of the denominators. -/
def mul (a b : Fraction) : Fraction :=
  ⟨a.num * b.num, a.den * b.den, Nat.mul_pos a.den_pos b.den_pos⟩

/-- The fraction with the opposite sign. -/
def neg (a : Fraction) : Fraction :=
  ⟨-a.num, a.den, a.den_pos⟩

/-- The difference, as the sum with the opposite. -/
def sub (a b : Fraction) : Fraction :=
  a.add b.neg

/-- Whether the value is zero. -/
def isZero (a : Fraction) : Bool :=
  a.num = 0

/-- The fraction turned upside down, its sign kept in the numerator. Zero stays as it is. -/
def inv (a : Fraction) : Fraction :=
  if h : a.num = 0 then a
  else ⟨a.num.sign * a.den, a.num.natAbs, Int.natAbs_pos.2 h⟩

/-- The multiplicative inverse of a fraction other than zero. -/
def reciprocal (a : Fraction) : Except Failure Fraction :=
  if a.isZero then .error (Failure.because .reciprocalOfZero) else .ok a.inv

/-- The quotient by a fraction other than zero. -/
def div (a b : Fraction) : Except Failure Fraction :=
  b.reciprocal.map a.mul

theorem gcd_pos (a : Fraction) : 0 < gcd a.num a.den := by
  rw [gcd_eq]
  exact Int.gcd_pos_of_ne_zero_right _ (by have := a.den_pos; omega)

theorem gcd_dvd_den (a : Fraction) : gcd a.num a.den ∣ a.den := by
  rw [gcd_eq]
  exact Int.natCast_dvd_natCast.1 (Int.gcd_dvd_right ..)

/-- The same value in lowest terms. -/
def reduce (a : Fraction) : Fraction :=
  let divisor := gcd a.num a.den
  ⟨a.num / divisor, a.den / divisor,
    Nat.div_pos (Nat.le_of_dvd a.den_pos a.gcd_dvd_den) a.gcd_pos⟩

/-- Whether the value is an integer. -/
def isWhole (a : Fraction) : Bool :=
  a.num % a.den = 0

/-- Whether two fractions have the same value: their cross products agree. -/
def Equiv (a b : Fraction) : Prop :=
  a.num * b.den = b.num * a.den

instance : DecidableRel Equiv := fun a b =>
  inferInstanceAs (Decidable (a.num * b.den = b.num * a.den))

/-- The modulus of keys, the prime number `2 ^ 61 - 1`. -/
def keyModulus : Nat := 2305843009213693951

/-- The residue of an integer modulo `keyModulus`, with its sign. Minus one is sent to minus
two. -/
def residue (value : Int) : Int :=
  let signed := value.sign * (value.natAbs % keyModulus : Nat)
  if signed = -1 then -2 else signed

/-- A key by which fractions are looked up: equal values have equal keys. It is made of the
residues of the lowest terms, and of the numerator alone if the value is whole. -/
def key (a : Fraction) : Int × Option Int :=
  let lowest := a.reduce
  if lowest.den = 1 then (residue lowest.num, none)
  else (residue lowest.num, some (residue lowest.den))

end Fraction

end MatrixCalc
