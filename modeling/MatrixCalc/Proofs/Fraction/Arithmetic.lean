import MatrixCalc.Fraction.Mixed
import MatrixCalc.Proofs.Failure
import MatrixCalc.Proofs.Fraction.Value

/-!
# Exact arithmetic on fractions in any terms

Fractions, and plain integers beside them, calculate as the rational numbers they denote, and fail
only in a division by zero (`Fraction.arithmetic_exact`). The terms of each result are terms that
`make` accepts. Equality does not depend on the terms, and neither do keys, since both are those of
the lowest terms; those of a whole value come to the residue of an integer (`Fraction.key_ofInt`).
-/

namespace MatrixCalc

namespace Fraction

/-- The greatest common divisor divides both numbers, and all that divides both divides it. -/
theorem gcd_greatest (m n : Int) :
    (gcd m n : Int) ∣ m ∧ (gcd m n : Int) ∣ n ∧
      ∀ divisor : Int, divisor ∣ m → divisor ∣ n → divisor ∣ gcd m n := by
  rw [gcd_eq]
  exact ⟨Int.gcd_dvd_left .., Int.gcd_dvd_right .., fun _ => Int.dvd_coe_gcd⟩

/-! ## Terms -/

/-- `IsMade num den result value` says that the terms are accepted and make a fraction over a
positive denominator that denotes a number. -/
structure IsMade (num den : Int) (result : Fraction) (value : ℚ) : Prop where
  make_eq : make num den = .ok result
  den_pos : 0 < result.den
  toRat_eq : result.toRat = value

/-- The terms of a fraction make it. -/
theorem isMade_of_terms {num den : Int} {result : Fraction} {value : ℚ} (hnum : result.num = num)
    (hden : result.den = den) (hvalue : result.toRat = value) : IsMade num den result value where
  make_eq := by
    rw [← hnum, ← hden]
    exact make_terms result
  den_pos := result.den_pos
  toRat_eq := hvalue

/-! ## Division -/

variable {a b : Fraction}

/-- Zero has no reciprocal, in whatever terms it is stored. -/
theorem reciprocal_of_eq_zero (h : a.toRat = 0) :
    a.reciprocal = .error (Failure.because .reciprocalOfZero) :=
  if_pos (isZero_iff.2 h)

/-- Every other number has one. -/
theorem reciprocal_of_ne_zero (h : a.toRat ≠ 0) : a.reciprocal = .ok a.inv :=
  if_neg fun hzero => h (isZero_iff.1 hzero)

/-- Nothing is divided by zero. -/
theorem div_of_eq_zero (h : b.toRat = 0) :
    a.div b = .error (Failure.because .reciprocalOfZero) := by
  rw [div, reciprocal_of_eq_zero h]
  rfl

/-- By every other number one divides by multiplying with its reciprocal. -/
theorem div_of_ne_zero (h : b.toRat ≠ 0) : a.div b = .ok (a.mul b.inv) := by
  rw [div, reciprocal_of_ne_zero h]
  rfl

/-- The terms of a reciprocal are those of the fraction in the other order. -/
theorem isMade_of_reciprocal {result : Fraction} (h : a.reciprocal = .ok result) :
    IsMade a.den a.num result a.toRat⁻¹ := by
  by_cases hzero : a.toRat = 0
  · rw [reciprocal_of_eq_zero hzero] at h
    cases h
  · rw [reciprocal_of_ne_zero hzero] at h
    cases h
    have hnum : a.num ≠ 0 := fun hnum => hzero (by rw [toRat, hnum, Int.cast_zero, zero_div])
    refine ⟨?_, a.inv.den_pos, toRat_inv a⟩
    rw [make, inv, dif_neg hnum, dif_neg hnum]

/-! ## Equality -/

/-- Equality as numbers is equality in lowest terms. -/
theorem equiv_iff_reduce_eq : a.Equiv b ↔ a.reduce = b.reduce :=
  equiv_iff.trans reduce_eq_reduce_iff.symm

/-! ## Keys -/

/-- The key of a fraction is that of its value. -/
theorem key_eq_of_toRat_eq (h : a.toRat = b.toRat) : a.key = b.key := by
  rw [key, key, reduce_eq_reduce_iff.2 h]

/-- Over one, the key is the residue of the numerator alone, as for a plain integer. -/
theorem key_ofInt (value : Int) : (ofInt value).key = (residue value, none) := by
  rw [key, (isReduced_ofInt value).reduce_eq]
  exact if_pos rfl

/-! ## Whole values -/

/-- The whole fractions are those that denote an integer. -/
theorem isWhole_iff_exists : a.isWhole = true ↔ ∃ value : Int, a.toRat = value := by
  rw [isWhole_iff]
  constructor
  · exact fun h => ⟨_, h.symm⟩
  · rintro ⟨value, hvalue⟩
    rw [hvalue, Int.floor_intCast]

/-- A fraction is converted to the integer that it denotes, if there is one. -/
theorem toInt_eq_ok_iff {value : Int} : a.toInt = .ok value ↔ a.toRat = value := by
  rw [toInt]
  split
  · next hwhole =>
    obtain ⟨whole, hvalue⟩ := isWhole_iff_exists.1 hwhole
    rw [← floor_toRat, hvalue, Int.floor_intCast, Int.cast_inj, Except.ok.injEq]
  · next hwhole =>
    refine iff_of_false ?_ fun hvalue => hwhole (isWhole_iff_exists.2 ⟨value, hvalue⟩)
    cases a.write <;> nofun

end Fraction

/-! ## Operators -/

namespace Mixed

/-- The number that an operand denotes, if it is no text. -/
def toRat? : Mixed → Option ℚ
  | fraction a => some a.toRat
  | integer k => some k
  | text _ => none

/-- The result is a fraction over a positive denominator that denotes a number. -/
def Denotes (result : Except Failure Mixed) (value : ℚ) : Prop :=
  ∃ a : Fraction, result = .ok (fraction a) ∧ 0 < a.den ∧ a.toRat = value

/-- The result denotes a quotient, or the division is reported if the divisor is zero. -/
def DenotesQuotient (result : Except Failure Mixed) (dividend divisor : ℚ) : Prop :=
  if divisor = 0 then ∃ failure, result = .error failure ∧ failure.ReportOf [.zeroDivision]
  else Denotes result (dividend / divisor)

/-- A fraction is a result that denotes its value. -/
theorem denotes_fraction {a : Fraction} {value : ℚ} (h : a.toRat = value) :
    Denotes (.ok (fraction a)) value :=
  ⟨a, rfl, a.den_pos, h⟩

/-- The reciprocal denotes one over the value. -/
theorem denotesQuotient_reciprocal (a : Fraction) :
    DenotesQuotient (a.reciprocal.map fraction) 1 a.toRat := by
  rw [DenotesQuotient]
  split
  · next hzero =>
    rw [Fraction.reciprocal_of_eq_zero hzero]
    exact ⟨_, rfl, Failure.reportOf_because _ rfl List.mem_cons_self⟩
  · next hzero =>
    rw [Fraction.reciprocal_of_ne_zero hzero]
    exact denotes_fraction (by rw [Fraction.toRat_inv, one_div])

/-- The quotient denotes the quotient. -/
theorem denotesQuotient_div (a b : Fraction) :
    DenotesQuotient ((a.div b).map fraction) a.toRat b.toRat := by
  rw [DenotesQuotient]
  split
  · next hzero =>
    rw [Fraction.div_of_eq_zero hzero]
    exact ⟨_, rfl, Failure.reportOf_because _ rfl List.mem_cons_self⟩
  · next hzero =>
    rw [Fraction.div_of_ne_zero hzero]
    exact denotes_fraction (by rw [Fraction.toRat_mul, Fraction.toRat_inv, div_eq_mul_inv])

/-- What operators make of a fraction and a number beside it. -/
structure OperatorsExact (a : Fraction) (other : Mixed) (value : ℚ) : Prop where
  add : Denotes ((fraction a).add other) (a.toRat + value)
  add_left : Denotes (other.add (fraction a)) (value + a.toRat)
  sub : Denotes ((fraction a).sub other) (a.toRat - value)
  mul : Denotes ((fraction a).mul other) (a.toRat * value)
  mul_left : Denotes (other.mul (fraction a)) (value * a.toRat)
  div : DenotesQuotient ((fraction a).div other) a.toRat value

/-- The operators are exact on a fraction and a number that is a fraction or an integer. -/
theorem operatorsExact (a : Fraction) {other : Mixed} {value : ℚ}
    (h : other.toRat? = some value) : OperatorsExact a other value := by
  cases other with
  | fraction b =>
    cases h
    exact ⟨denotes_fraction (a.toRat_add b), denotes_fraction (b.toRat_add a),
      denotes_fraction (a.toRat_sub b), denotes_fraction (a.toRat_mul b),
      denotes_fraction (b.toRat_mul a), denotesQuotient_div a b⟩
  | integer k =>
    cases h
    have hk := Fraction.toRat_ofInt k
    refine ⟨denotes_fraction ?_, denotes_fraction ?_, denotes_fraction ?_, denotes_fraction ?_,
      denotes_fraction ?_, ?_⟩
    · rw [Fraction.toRat_add, hk]
    · rw [Fraction.toRat_add, hk, add_comm]
    · rw [Fraction.toRat_sub, hk]
    · rw [Fraction.toRat_mul, hk]
    · rw [Fraction.toRat_mul, hk, mul_comm]
    · exact hk ▸ denotesQuotient_div a (.ofInt k)
  | text written => cases h

variable {left right : Mixed} {x y : ℚ}

/-- Numbers are equal exactly if their values are, integers and fractions mixed. -/
theorem same_iff (hleft : left.toRat? = some x) (hright : right.toRat? = some y) :
    left.same right = true ↔ x = y := by
  cases left <;> cases right <;> cases hleft <;> cases hright
  all_goals simp only [same, decide_eq_true_iff, Fraction.equiv_iff, Fraction.toRat_ofInt,
    Int.cast_inj]

/-- Numbers are looked up by the key of a fraction that denotes them, integers as well. -/
theorem exists_key (h : left.toRat? = some x) :
    ∃ a : Fraction, a.toRat = x ∧ left.key = .number a.key := by
  cases left with
  | fraction a =>
    cases h
    exact ⟨a, rfl, rfl⟩
  | integer k =>
    cases h
    exact ⟨.ofInt k, Fraction.toRat_ofInt k, by rw [key, Fraction.key_ofInt]⟩
  | text written => cases h

/-- Equal numbers have equal keys, integers and fractions mixed. -/
theorem key_eq (hleft : left.toRat? = some x) (hright : right.toRat? = some x) :
    left.key = right.key := by
  obtain ⟨a, ha, hkey⟩ := exists_key hleft
  obtain ⟨b, hb, hkey'⟩ := exists_key hright
  rw [hkey, hkey', Fraction.key_eq_of_toRat_eq (ha.trans hb.symm)]

end Mixed

namespace Fraction

/-- What the operations make of fractions: the terms of each result, and the number it denotes. -/
structure OperationsExact (a b : Fraction) : Prop where
  add : IsMade (a.num * b.den + b.num * a.den) (a.den * b.den) (a.add b) (a.toRat + b.toRat)
  sub : IsMade (a.num * b.den + -b.num * a.den) (a.den * b.den) (a.sub b) (a.toRat - b.toRat)
  mul : IsMade (a.num * b.num) (a.den * b.den) (a.mul b) (a.toRat * b.toRat)
  neg : IsMade (-a.num) a.den a.neg (-a.toRat)
  reciprocal : Mixed.DenotesQuotient (a.reciprocal.map .fraction) 1 a.toRat
  reciprocal_terms : ∀ result, a.reciprocal = .ok result → IsMade a.den a.num result a.toRat⁻¹
  div : Mixed.DenotesQuotient ((a.div b).map .fraction) a.toRat b.toRat
  reduce : IsMade (a.num / gcd a.num a.den) (a.den / gcd a.num a.den) a.reduce a.toRat
  lowest : a.reduce.IsReduced
  toInt : ∀ value, a.toInt = .ok value ↔ a.toRat = value

/-- The methods on two fractions are exact. -/
theorem operationsExact (a b : Fraction) : a.OperationsExact b where
  add := isMade_of_terms rfl rfl (toRat_add a b)
  sub := isMade_of_terms rfl rfl (toRat_sub a b)
  mul := isMade_of_terms rfl rfl (toRat_mul a b)
  neg := isMade_of_terms rfl rfl (toRat_neg a)
  reciprocal := Mixed.denotesQuotient_reciprocal a
  reciprocal_terms _ := isMade_of_reciprocal
  div := Mixed.denotesQuotient_div a b
  reduce := isMade_of_terms rfl rfl (toRat_reduce a)
  lowest := isReduced_reduce a
  toInt _ := toInt_eq_ok_iff

/-- Fractions calculate as the numbers they denote, whatever their terms, and so do the operators
between a fraction and another number. Only a division by zero is refused, and it is reported.
Equality is that of the numbers and of the lowest terms, and equal numbers have equal keys. -/
theorem arithmetic_exact (a b : Fraction) :
    a.OperationsExact b ∧
    (∀ other value, Mixed.toRat? other = some value → Mixed.OperatorsExact a other value) ∧
    (∀ m n : Int, (gcd m n : Int) ∣ m ∧ (gcd m n : Int) ∣ n ∧
      ∀ divisor : Int, divisor ∣ m → divisor ∣ n → divisor ∣ gcd m n) ∧
    (a.Equiv b ↔ a.toRat = b.toRat) ∧ (a.Equiv b ↔ a.reduce = b.reduce) ∧
    ∀ left right x y, Mixed.toRat? left = some x → Mixed.toRat? right = some y →
      (left.same right = true ↔ x = y) ∧ (left.same right = true → left.key = right.key) := by
  refine ⟨operationsExact a b, fun _ _ => Mixed.operatorsExact a, gcd_greatest, equiv_iff,
    equiv_iff_reduce_eq, fun left right x y hleft hright => ?_⟩
  have hsame := Mixed.same_iff hleft hright
  refine ⟨hsame, fun h => ?_⟩
  obtain rfl := hsame.1 h
  exact Mixed.key_eq hleft hright

/-- Four over minus two is the integer minus two, and is divided by an integer and by itself. -/
theorem arithmetic_exact_whole :
    let a : Fraction := ⟨-4, 2, by decide⟩
    Mixed.toRat? (.integer (-2)) = some (-2) ∧ Mixed.toRat? (.fraction a) = some (-2) ∧
      a.reciprocal = .ok ⟨-2, 4, by decide⟩ ∧ IsMade 2 (-4) ⟨-2, 4, by decide⟩ a.toRat⁻¹ ∧
      Mixed.OperatorsExact a (.integer (-2)) (-2) ∧
      (Mixed.fraction a).same (.integer (-2)) = true ∧
      (Mixed.fraction a).key = (Mixed.integer (-2)).key := by
  intro a
  have hinteger : Mixed.toRat? (.integer (-2)) = some (-2) := by norm_num [Mixed.toRat?]
  have hfraction : Mixed.toRat? (.fraction a) = some (-2) := by norm_num [Mixed.toRat?, toRat, a]
  have hreciprocal : a.reciprocal = .ok ⟨-2, 4, by decide⟩ := rfl
  obtain ⟨hoperations, hoperators, -, -, -, hequality⟩ := arithmetic_exact a a
  obtain ⟨hsame, hkey⟩ := hequality _ _ _ _ hfraction hinteger
  exact ⟨hinteger, hfraction, hreciprocal, hoperations.reciprocal_terms _ hreciprocal,
    hoperators _ _ hinteger, hsame.2 rfl, hkey (hsame.2 rfl)⟩

end Fraction

end MatrixCalc
