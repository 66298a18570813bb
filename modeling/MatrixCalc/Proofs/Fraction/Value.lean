import MatrixCalc.Fraction.Basic
import Mathlib.Data.Nat.Cast.Field
import Mathlib.Data.Rat.Floor
import Mathlib.Tactic.FieldSimp

/-!
# The value of a fraction

`Fraction.toRat` is the rational number that a fraction denotes. The operations on fractions are
those of the rational numbers, whatever the terms a fraction is stored in, and `reduce` picks one
fraction for each number (`reduce_eq_reduce_iff`).
-/

namespace MatrixCalc.Fraction

/-- The rational number that a fraction denotes. -/
def toRat (a : Fraction) : ℚ :=
  a.num / a.den

/-- The denominator of a fraction is not zero as a rational number either. -/
theorem den_ne_zero (a : Fraction) : (a.den : ℚ) ≠ 0 :=
  Nat.cast_ne_zero.2 a.den_pos.ne'

/-- Two fractions are equivalent, by crosswise multiplication, exactly if they denote one number. -/
theorem equiv_iff {a b : Fraction} : a.Equiv b ↔ a.toRat = b.toRat := by
  rw [toRat, toRat, div_eq_div_iff a.den_ne_zero b.den_ne_zero, Equiv]
  norm_cast

/-! ## Terms -/

/-- A fraction is made of every numerator and nonzero denominator; the sign goes to the numerator,
and nothing else is done to the terms. -/
theorem make_eq_ok_iff {num den : Int} {a : Fraction} :
    make num den = .ok a ↔ den ≠ 0 ∧ a.num = den.sign * num ∧ a.den = den.natAbs := by
  obtain ⟨top, bottom, hpos⟩ := a
  by_cases h : den = 0
  · simp [make, h]
  · simp [make, h, eq_comm]

/-- Over a positive denominator the terms are kept. -/
theorem make_of_pos (num : Int) {den : Nat} (h : 0 < den) : make num den = .ok ⟨num, den, h⟩ := by
  have hsign : (den : Int).sign = 1 := Int.sign_eq_one_of_pos (by omega)
  refine make_eq_ok_iff.2 ⟨by omega, ?_, (Int.natAbs_natCast den).symm⟩
  rw [hsign, Int.one_mul]

/-- A fraction is made again from its own terms. -/
theorem make_terms (a : Fraction) : make a.num a.den = .ok a :=
  make_of_pos a.num a.den_pos

/-! ## Operations -/

/-- A whole number denotes itself. -/
@[simp] theorem toRat_ofInt (value : Int) : (ofInt value).toRat = value := by
  simp [toRat, ofInt]

/-- The fraction zero denotes zero. -/
@[simp] theorem toRat_zero : (0 : Fraction).toRat = 0 := by
  show (ofInt 0).toRat = 0
  simp

/-- The fraction one denotes one. -/
@[simp] theorem toRat_one : (1 : Fraction).toRat = 1 := by
  show (ofInt 1).toRat = 1
  simp

/-- The sum denotes the sum. -/
@[simp] theorem toRat_add (a b : Fraction) : (a.add b).toRat = a.toRat + b.toRat := by
  have ha := a.den_ne_zero
  have hb := b.den_ne_zero
  simp only [toRat, add]
  push_cast
  field_simp

/-- The product denotes the product. -/
@[simp] theorem toRat_mul (a b : Fraction) : (a.mul b).toRat = a.toRat * b.toRat := by
  simp only [toRat, mul]
  push_cast
  rw [div_mul_div_comm]

/-- The opposite denotes the opposite. -/
@[simp] theorem toRat_neg (a : Fraction) : a.neg.toRat = -a.toRat := by
  simp only [toRat, neg]
  push_cast
  rw [neg_div]

/-- The difference denotes the difference. -/
@[simp] theorem toRat_sub (a b : Fraction) : (a.sub b).toRat = a.toRat - b.toRat := by
  rw [sub, toRat_add, toRat_neg, sub_eq_add_neg]

/-- The test for zero looks at the numerator alone, and that decides whether the value is zero. -/
theorem isZero_iff {a : Fraction} : a.isZero = true ↔ a.toRat = 0 := by
  rw [toRat, div_eq_zero_iff, or_iff_left a.den_ne_zero, isZero, decide_eq_true_iff]
  norm_cast

/-- Zero has no reciprocal and is left as it is, as for the rational numbers. -/
@[simp] theorem toRat_inv (a : Fraction) : a.inv.toRat = a.toRat⁻¹ := by
  by_cases h : a.num = 0
  · have hzero : a.toRat = 0 := isZero_iff.1 (by simp [isZero, h])
    rw [inv, dif_pos h, hzero, inv_zero]
  · rw [inv, dif_neg h, toRat, toRat, inv_div]
    have habs : (a.num.natAbs : ℚ) = a.num.sign * a.num := by
      rw [← Int.cast_natCast, ← Int.sign_mul_self_eq_natAbs, Int.cast_mul]
    have hsign : (a.num.sign : ℚ) ≠ 0 := Int.cast_ne_zero.2 (by simpa using h)
    rw [habs, Int.cast_mul, Int.cast_natCast, mul_div_mul_left _ _ hsign]

/-! ## Lowest terms -/

/-- A fraction whose terms have no divisor in common. -/
def IsReduced (a : Fraction) : Prop :=
  Nat.Coprime a.num.natAbs a.den

/-- Bringing a fraction to lowest terms keeps its value. -/
@[simp] theorem toRat_reduce (a : Fraction) : a.reduce.toRat = a.toRat := by
  have hpos : ((gcd a.num a.den : Nat) : ℚ) ≠ 0 := Nat.cast_ne_zero.2 a.gcd_pos.ne'
  have hnum : (gcd a.num a.den : Int) ∣ a.num := by
    rw [gcd_eq]
    exact Int.gcd_dvd_left ..
  simp only [toRat, reduce]
  rw [Int.cast_div hnum (by exact_mod_cast hpos), Nat.cast_div a.gcd_dvd_den hpos,
    Int.cast_natCast, div_div_div_cancel_right₀ hpos]

/-- `reduce` does bring a fraction to lowest terms. -/
theorem isReduced_reduce (a : Fraction) : a.reduce.IsReduced := by
  have hpos : 0 < Nat.gcd a.num.natAbs a.den := Nat.gcd_pos_of_pos_right _ a.den_pos
  have hgcd : gcd a.num a.den = Nat.gcd a.num.natAbs a.den := by
    rw [gcd_eq, Int.gcd, Int.natAbs_natCast]
  have hnum : ((Nat.gcd a.num.natAbs a.den : Nat) : Int) ∣ a.num :=
    Int.natCast_dvd.2 (Nat.gcd_dvd_left _ _)
  simp only [IsReduced, reduce]
  rw [hgcd, Int.natAbs_ediv_of_dvd hnum, Int.natAbs_natCast]
  exact Nat.coprime_div_gcd_div_gcd hpos

/-- In lowest terms the numerator is that of the rational number. -/
theorem IsReduced.num_toRat {a : Fraction} (h : a.IsReduced) : a.toRat.num = a.num :=
  Rat.num_div_eq_of_coprime (Int.natCast_pos.2 a.den_pos) h

/-- In lowest terms the denominator is that of the rational number. -/
theorem IsReduced.den_toRat {a : Fraction} (h : a.IsReduced) : a.toRat.den = a.den := by
  have hpos : (0 : Int) < a.den := Int.natCast_pos.2 a.den_pos
  exact Int.ofNat.inj (Rat.den_div_eq_of_coprime hpos h)

/-- Lowest terms are determined by the value. -/
theorem IsReduced.eq_of_toRat_eq {a b : Fraction} (ha : a.IsReduced) (hb : b.IsReduced)
    (h : a.toRat = b.toRat) : a = b := by
  have hnum : a.num = b.num := by rw [← ha.num_toRat, h, hb.num_toRat]
  have hden : a.den = b.den := by rw [← ha.den_toRat, h, hb.den_toRat]
  cases a
  cases b
  cases hnum
  cases hden
  rfl

/-- There is one fraction in lowest terms for each number. -/
theorem reduce_eq_reduce_iff {a b : Fraction} : a.reduce = b.reduce ↔ a.toRat = b.toRat := by
  constructor
  · intro h
    rw [← toRat_reduce a, h, toRat_reduce]
  · intro h
    exact a.isReduced_reduce.eq_of_toRat_eq b.isReduced_reduce (by simpa using h)

/-- A fraction in lowest terms stays as it is. -/
theorem IsReduced.reduce_eq {a : Fraction} (h : a.IsReduced) : a.reduce = a :=
  a.isReduced_reduce.eq_of_toRat_eq h a.toRat_reduce

/-- What is in lowest terms already is not changed again. -/
@[simp] theorem reduce_reduce (a : Fraction) : a.reduce.reduce = a.reduce :=
  a.isReduced_reduce.reduce_eq

/-- An integer has no divisor in common with one. -/
theorem isReduced_ofInt (value : Int) : (ofInt value).IsReduced :=
  Nat.coprime_one_right _

/-- The number one is in lowest terms. -/
theorem isReduced_one : (1 : Fraction).IsReduced :=
  isReduced_ofInt 1

/-- In lowest terms there is one way to write the number one. -/
theorem IsReduced.eq_one_iff {a : Fraction} (h : a.IsReduced) : a = 1 ↔ a.toRat = 1 := by
  constructor
  · rintro rfl
    exact toRat_one
  · intro hone
    exact h.eq_of_toRat_eq isReduced_one (by rw [hone, toRat_one])

/-! ## Whole values -/

/-- The quotient of the terms, rounded down, is the floor of the value. -/
theorem floor_toRat (a : Fraction) : ⌊a.toRat⌋ = a.num / a.den :=
  Rat.floor_intCast_div_natCast a.num a.den

/-- The test for wholeness decides whether the value is an integer, in whatever terms. -/
theorem isWhole_iff {a : Fraction} : a.isWhole = true ↔ (⌊a.toRat⌋ : ℚ) = a.toRat := by
  rw [isWhole, decide_eq_true_iff, floor_toRat, toRat, eq_div_iff a.den_ne_zero]
  norm_cast
  rw [← Int.dvd_iff_emod_eq_zero]
  exact ⟨Int.ediv_mul_cancel, fun h => ⟨a.num / a.den, by rw [Int.mul_comm, h]⟩⟩

/-! ## Fractions of one value -/

variable {a b : Fraction}

/-- A fraction is equivalent to itself. -/
theorem Equiv.refl (a : Fraction) : a.Equiv a :=
  rfl

/-- Of two fractions of one value both are zero or neither is. -/
theorem Equiv.isZero_eq (h : a.Equiv b) : a.isZero = b.isZero := by
  rw [Bool.eq_iff_iff, isZero_iff, isZero_iff, equiv_iff.1 h]

/-- Of two fractions of one value both are whole or neither is. -/
theorem Equiv.isWhole_eq (h : a.Equiv b) : a.isWhole = b.isWhole := by
  rw [Bool.eq_iff_iff, isWhole_iff, isWhole_iff, equiv_iff.1 h]

/-- Two fractions of one value are rounded down to the same integer. -/
theorem Equiv.ediv_eq (h : a.Equiv b) : a.num / a.den = b.num / b.den := by
  rw [← floor_toRat, ← floor_toRat, equiv_iff.1 h]

end MatrixCalc.Fraction
