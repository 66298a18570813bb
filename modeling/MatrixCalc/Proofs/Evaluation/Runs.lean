import MatrixCalc.Proofs.Evaluation.Basic
import MatrixCalc.Proofs.Failure
import MatrixCalc.Proofs.Grid.Pivots
import MatrixCalc.Proofs.RatMatrix.Congruence

/-!
# The runs of a term

A term is cut at its divisions into products, its runs (`Term.products`). It evaluates as if each
run stood in parentheses: the values of the runs come first, from left to right, and then the
first is divided by the others (`Term.eval_eq`). The value of a run is the product of the values of
its factors (`Term.IsProduct.eval_eq_ok_iff`). So writing the parentheses changes nothing, and a
term whose runs have values fails only at a divisor that is a matrix or zero (`Term.eval_runs`).
-/

namespace MatrixCalc

/-! ## Cutting a term at its divisions -/

/-- A product, divided by further products from left to right. -/
inductive Products where
  | single (run : Term)
  | quotient (before : Products) (run : Term)

/-- An expression in parentheses as a factor. -/
def Term.parenthesized (run : Term) : Factor :=
  .mk false (.group (.mk (.term run) none))

/-- A term without a division. -/
def Term.IsProduct : Term → Prop
  | .factor _ => True
  | .join before op _ => op = .mul ∧ before.IsProduct

/-- A term divided by the first factor of a product and multiplied by the others. -/
def Term.dividedBy (before : Term) : Term → Term
  | .factor last => .join before .div last
  | .join run op last => .join (before.dividedBy run) op last

namespace Products

/-- The product that is divided. -/
def first : Products → Term
  | single run => run
  | quotient before _ => before.first

/-- The products that are divided by, from left to right. -/
def later : Products → List Term
  | single _ => []
  | quotient before run => before.later ++ [run]

/-- One more factor of the last product. -/
def extend : Products → Factor → Products
  | single run, last => single (.join run .mul last)
  | quotient before run, last => quotient before (.join run .mul last)

/-- The quotient as a term in which each product stands in parentheses. -/
def bracketed : Products → Term
  | single run => .factor run.parenthesized
  | quotient before run => .join before.bracketed .div run.parenthesized

/-- The quotient as a term without further parentheses. -/
def unbracketed : Products → Term
  | single run => run
  | quotient before run => before.unbracketed.dividedBy run

/-- Each of the products is one, with no division in it. -/
def AreProducts : Products → Prop
  | single run => run.IsProduct
  | quotient before run => before.AreProducts ∧ run.IsProduct

end Products

/-- The products of a term between its divisions. -/
def Term.products : Term → Products
  | .factor last => .single (.factor last)
  | .join before .mul last => before.products.extend last
  | .join before .div last => .quotient before.products (.factor last)

/-- The products are the one that is divided and those it is divided by. -/
theorem Products.AreProducts.isProduct {products : Products} (h : products.AreProducts) :
    ∀ run ∈ products.first :: products.later, run.IsProduct := by
  induction products with
  | single run => exact List.forall_mem_singleton.2 h
  | quotient before run ih =>
    obtain ⟨hfirst, hlater⟩ := List.forall_mem_cons.1 (ih h.1)
    exact List.forall_mem_cons.2 ⟨hfirst, List.forall_mem_append.2
      ⟨hlater, List.forall_mem_singleton.2 h.2⟩⟩

/-- One more factor extends the last product. -/
theorem Products.areProducts_extend {products : Products} (h : products.AreProducts)
    (last : Factor) : (products.extend last).AreProducts := by
  cases products with
  | single run => exact ⟨rfl, h⟩
  | quotient before run => exact ⟨h.1, rfl, h.2⟩

/-- One more factor of the last product is one more factor of the term. -/
theorem Products.unbracketed_extend (products : Products) (last : Factor) :
    (products.extend last).unbracketed = .join products.unbracketed .mul last := by
  cases products <;> rfl

/-- The runs of a term are products. -/
theorem Term.areProducts_products : ∀ term : Term, term.products.AreProducts
  | .factor _ => trivial
  | .join before .mul last => Products.areProducts_extend before.areProducts_products last
  | .join before .div _ => ⟨before.areProducts_products, trivial⟩

/-- Without parentheses, the quotient of its products is the term itself. -/
theorem Term.unbracketed_products : ∀ term : Term, term.products.unbracketed = term
  | .factor _ => rfl
  | .join before .mul last => by
    rw [products, Products.unbracketed_extend, before.unbracketed_products]
  | .join before .div last => by
    rw [products, Products.unbracketed, before.unbracketed_products, dividedBy]

/-! ## Evaluating a term by its runs -/

section Eval

variable {σ : Type} (definer : Definer σ)

/-- The runs that have these values: one that is divided, and those it is divided by. -/
def Runs.ofValues (first : Value) (divisors : List Value) : Runs :=
  divisors.foldl (fun runs value => ⟨runs.current :: runs.closed, value⟩) (.single first)

/-- One more divisor opens one more run. -/
theorem Runs.ofValues_append (first last : Value) (divisors : List Value) :
    ofValues first (divisors ++ [last]) =
      ⟨(ofValues first divisors).current :: (ofValues first divisors).closed, last⟩ := by
  rw [ofValues, List.foldl_append]
  rfl

/-- Runs are divided from the first to the last. -/
theorem Runs.divideAll_ofValues (first : Value) (divisors : List Value) :
    (ofValues first divisors).divideAll = divisors.foldlM Value.divide first := by
  induction divisors using List.reverseRecOn with
  | nil => rfl
  | append_singleton earlier last ih =>
    rw [ofValues_append, divideAll_cons, ih, List.foldlM_append]
    simp only [List.foldlM_cons, List.foldlM_nil, bind_pure]

/-- A product extends the run that is still open. -/
theorem Runs.extend_mul (runs : Runs) (value : Value) :
    Evaluation.ofExcept (σ := σ) (runs.extend .mul value) =
      Evaluation.ofExcept (runs.current.multiply value) >>= fun product =>
        pure ⟨runs.closed, product⟩ := by
  rw [extend]
  cases runs.current.multiply value <;> rfl

/-- A single run is not divided by anything. -/
theorem Runs.divideAll_single (value : Value) :
    Evaluation.ofExcept (σ := σ) (Runs.single value).divideAll = pure value :=
  rfl

/-- A term of one factor evaluates as the factor. -/
theorem Term.eval_factor (last : Factor) : (Term.factor last).eval definer = last.eval definer := by
  rw [eval, evalRuns, Evaluation.divided, bind_assoc]
  simp only [pure_bind, Runs.divideAll_single, bind_pure]

/-- Parentheses around a product change nothing. -/
theorem Term.eval_parenthesized (run : Term) :
    run.parenthesized.eval definer = run.eval definer := by
  rw [parenthesized, Factor.eval]
  simp only [Bool.false_eq_true, if_false, bind_pure]
  rw [Operand.eval, Expr.eval, Sum.eval, eval]

/-- A product has a single run, which is its value. -/
theorem Term.IsProduct.evalRuns_eq : ∀ {run : Term}, run.IsProduct →
    run.evalRuns definer = run.eval definer >>= fun value => pure (.single value)
  | .factor last, _ => by rw [Term.eval_factor, Term.evalRuns]
  | .join before op last, ⟨hop, hbefore⟩ => by
    subst hop
    rw [Term.eval, Term.evalRuns, hbefore.evalRuns_eq]
    simp only [Evaluation.divided, bind_assoc, pure_bind, Runs.extend_mul]
    rfl

/-- A product with one more factor. -/
theorem Term.IsProduct.eval_join {run : Term} (h : run.IsProduct) (last : Factor) :
    (Term.join run .mul last).eval definer =
      run.eval definer >>= fun product => last.eval definer >>= fun value =>
        Evaluation.ofExcept (product.multiply value) := by
  rw [Term.eval, Term.evalRuns, h.evalRuns_eq]
  simp only [Evaluation.divided, bind_assoc, pure_bind, Runs.extend_mul]
  exact bind_congr fun product => bind_congr fun value => bind_pure _

/-- The runs of products, evaluated from left to right. -/
def Products.evalRuns (products : Products) : Evaluation σ Runs := do
  let first ← products.first.eval definer
  let divisors ← products.later.mapM (Term.eval definer)
  pure (.ofValues first divisors)

/-- The runs of a quotient are those of the dividend, and one more. -/
theorem Products.evalRuns_quotient (before : Products) (run : Term) :
    (quotient before run).evalRuns definer =
      before.evalRuns definer >>= fun runs => run.eval definer >>= fun value =>
        pure ⟨runs.current :: runs.closed, value⟩ := by
  simp only [evalRuns, first, later, List.mapM_append, List.mapM_cons, List.mapM_nil, bind_assoc,
    pure_bind, Runs.ofValues_append]

/-- One more factor is multiplied to the run that is still open. -/
theorem Products.evalRuns_extend {products : Products} (h : products.AreProducts) (last : Factor) :
    (products.extend last).evalRuns definer =
      products.evalRuns definer >>= fun runs => last.eval definer >>= fun value =>
        Evaluation.ofExcept (runs.extend .mul value) := by
  cases products with
  | single run =>
    simp only [extend, evalRuns, first, later, List.mapM_nil, bind_assoc, pure_bind,
      Term.IsProduct.eval_join definer h, Runs.extend_mul]
    rfl
  | quotient before run =>
    rw [extend, evalRuns_quotient, evalRuns_quotient]
    simp only [bind_assoc, pure_bind, h.2.eval_join definer, Runs.extend_mul]

/-- The runs of a term are those of its products. -/
theorem Term.evalRuns_eq : ∀ term : Term, term.evalRuns definer = term.products.evalRuns definer
  | .factor last => by
    simp only [products, Products.evalRuns, Products.first, Products.later, List.mapM_nil,
      pure_bind, eval_factor, evalRuns]
    rfl
  | .join before .mul last => by
    rw [products, Products.evalRuns_extend definer before.areProducts_products, evalRuns,
      before.evalRuns_eq]
  | .join before .div last => by
    rw [products, Products.evalRuns_quotient, evalRuns, before.evalRuns_eq, eval_factor]
    rfl

/-- A term is evaluated run by run, from left to right, and then divided. -/
theorem Term.eval_eq (term : Term) :
    term.eval definer =
      term.products.first.eval definer >>= fun first =>
        term.products.later.mapM (Term.eval definer) >>= fun divisors =>
          Evaluation.ofExcept (divisors.foldlM Value.divide first) := by
  rw [eval, evalRuns_eq, Evaluation.divided, Products.evalRuns]
  simp only [bind_assoc, pure_bind, Runs.divideAll_ofValues]

/-- Brackets around the products change nothing about the runs. -/
theorem Products.evalRuns_bracketed (products : Products) :
    products.bracketed.evalRuns definer = products.evalRuns definer := by
  induction products with
  | single run =>
    simp only [bracketed, Term.evalRuns, Term.eval_parenthesized, evalRuns, first, later,
      List.mapM_nil, pure_bind]
    rfl
  | quotient before run ih =>
    rw [bracketed, evalRuns_quotient, Term.evalRuns, ih, Term.eval_parenthesized]
    rfl

/-- Writing the parentheses around the runs of a term changes nothing. -/
theorem Term.eval_bracketed (term : Term) :
    term.products.bracketed.eval definer = term.eval definer := by
  rw [eval, Products.evalRuns_bracketed, ← evalRuns_eq, eval]

end Eval

/-! ## Multiplying -/

namespace Value

/-- The other value, of the same kind and size, is so many times the value. -/
inductive IsMultiple (factor : ℚ) : Value → Value → Prop
  | scalar {a b : Fraction} (h : b.toRat = factor * a.toRat) :
      IsMultiple factor (.scalar a) (.scalar b)
  | matrix {rows cols : Nat} {grid other : Grid rows cols}
      (h : other.values = factor • grid.values) :
      IsMultiple factor (.matrix ⟨rows, cols, grid⟩) (.matrix ⟨rows, cols, other⟩)

/-- A value is one times itself. -/
theorem IsMultiple.one (value : Value) : IsMultiple 1 value value := by
  cases value with
  | scalar a => exact .scalar (one_mul _).symm
  | matrix m => exact .matrix (one_smul ℚ m.grid.values).symm

/-- A multiple of a multiple is one by the product of the factors. -/
theorem IsMultiple.trans {factor factor' : ℚ} {value middle other : Value}
    (h : IsMultiple factor value middle) (h' : IsMultiple factor' middle other) :
    IsMultiple (factor * factor') value other := by
  cases h with
  | scalar h =>
    cases h' with
    | scalar h' => exact .scalar (by rw [h', h, mul_left_comm, mul_assoc])
  | matrix h =>
    cases h' with
    | matrix h' => exact .matrix (by rw [h', h, smul_smul, mul_comm])

/-- The third value is the product of the other two. -/
inductive IsTimes : Value → Value → Value → Prop
  | scalar {a : Fraction} {value product : Value} (h : IsMultiple a.toRat value product) :
      IsTimes (.scalar a) value product
  | matrixScalar {m : RatMatrix} {a : Fraction} {product : Value}
      (h : IsMultiple a.toRat (.matrix m) product) : IsTimes (.matrix m) (.scalar a) product
  | matrices {rows inner cols : Nat} {left : Grid rows inner} {right : Grid inner cols}
      {product : Grid rows cols} (h : product.values = left.values * right.values) :
      IsTimes (.matrix ⟨rows, inner, left⟩) (.matrix ⟨inner, cols, right⟩)
        (.matrix ⟨rows, cols, product⟩)

/-- The value is the product of a first value and some more, taken from left to right. -/
inductive IsProductOf (first : Value) : List Value → Value → Prop
  | single : IsProductOf first [] first
  | append {rest : List Value} {before last product : Value} (h : IsProductOf first rest before)
      (hlast : before.IsTimes last product) : IsProductOf first (rest ++ [last]) product

/-- A product that succeeds is the product of the values. -/
theorem isTimes_of_multiply {a b product : Value} (h : a.multiply b = .ok product) :
    a.IsTimes b product := by
  cases a with
  | scalar a =>
    cases b with
    | scalar b =>
      cases h
      exact .scalar (.scalar (by rw [Fraction.toRat_reduce, Fraction.toRat_mul]))
    | matrix m =>
      cases h
      exact .scalar (.matrix (Grid.values_scale a m.grid))
  | matrix m =>
    cases b with
    | scalar b =>
      cases h
      exact .matrixScalar (.matrix (Grid.values_scale b m.grid))
    | matrix n =>
      obtain ⟨rows, inner, left⟩ := m
      obtain ⟨inner', cols, right⟩ := n
      by_cases hsizes : inner = inner'
      · subst hsizes
        rw [multiply, RatMatrix.multiply_mk] at h
        cases h
        exact .matrices (Grid.values_multiply left right)
      · rw [multiply, RatMatrix.multiply, dif_neg hsizes] at h
        cases h

/-- The product of two integers is an integer over one. -/
theorem multiply_ofInt (a b : Int) :
    (scalar (.ofInt a)).multiply (.scalar (.ofInt b)) = .ok (.scalar (.ofInt (a * b))) := by
  show Except.ok (scalar (Fraction.ofInt (a * b)).reduce) = _
  rw [(Fraction.isReduced_ofInt _).reduce_eq]

/-- The product of some values and one more. -/
theorem foldlM_multiply_append_eq_ok_iff {first last product : Value} {rest : List Value} :
    (rest ++ [last]).foldlM multiply first = .ok product ↔
      ∃ before, rest.foldlM multiply first = .ok before ∧ before.multiply last = .ok product := by
  simp only [List.foldlM_append, List.foldlM_cons, List.foldlM_nil, bind_pure]
  cases rest.foldlM multiply first with
  | error failure => exact iff_of_false nofun nofun
  | ok before =>
    constructor
    · exact fun h => ⟨before, rfl, h⟩
    · rintro ⟨_, ⟨⟩, h⟩
      exact h

/-- Multiplied from left to right, values come to their product. -/
theorem isProductOf_of_foldlM {first product : Value} {rest : List Value}
    (h : rest.foldlM multiply first = .ok product) : first.IsProductOf rest product := by
  induction rest using List.reverseRecOn generalizing product with
  | nil =>
    cases h
    exact .single
  | append_singleton earlier last ih =>
    obtain ⟨before, hbefore, hlast⟩ := foldlM_multiply_append_eq_ok_iff.1 h
    exact .append (ih hbefore) (isTimes_of_multiply hlast)

end Value

/-! ## The factors of a run -/

/-- In front of some more, a term has its own factors. -/
theorem Term.toListOnto_factors : ∀ (term : Term) (more : List (MulOp × Factor)),
    (term.toListOnto more).1 :: (term.toListOnto more).2.map Prod.snd =
      term.factors ++ more.map Prod.snd
  | .factor _, _ => rfl
  | .join before op last, more => by
    have hbefore := before.toListOnto_factors ((op, last) :: more)
    have hjoin : (Term.join before op last).factors = before.factors ++ [last] :=
      before.toListOnto_factors [(op, last)]
    rw [hjoin, List.append_assoc]
    exact hbefore

/-- One more factor comes last. -/
theorem Term.factors_join (before : Term) (op : MulOp) (last : Factor) :
    (Term.join before op last).factors = before.factors ++ [last] :=
  before.toListOnto_factors [(op, last)]

section Factors

variable {σ : Type} (definer : Definer σ)

/-- The values of some factors and of one more behind them. -/
theorem Factor.mapM_eval_append_eq_ok_iff {factors : List Factor} {last : Factor}
    {values : List Value} {before after : Progress σ} :
    (factors ++ [last]).mapM (Factor.eval definer) before = .ok values after ↔
      ∃ earlier middle, factors.mapM (Factor.eval definer) before = .ok earlier middle ∧
        ∃ value, last.eval definer middle = .ok value after ∧ values = earlier ++ [value] := by
  have hsplit : (factors ++ [last]).mapM (Factor.eval definer) =
      factors.mapM (Factor.eval definer) >>= fun earlier => last.eval definer >>= fun value =>
        pure (earlier ++ [value]) := by
    simp only [List.mapM_append, List.mapM_cons, List.mapM_nil, bind_assoc, pure_bind]
  rw [hsplit, Evaluation.bind_eq_ok_iff]
  refine exists_congr fun earlier => exists_congr fun middle => and_congr_right fun _ => ?_
  rw [Evaluation.bind_eq_ok_iff]
  constructor
  · rintro ⟨value, _, hvalue, ⟨⟩⟩
    exact ⟨value, hvalue, rfl⟩
  · rintro ⟨value, hvalue, rfl⟩
    exact ⟨value, after, hvalue, rfl⟩

/-- A term has a factor. -/
theorem Term.mapM_factors_ne_nil (term : Term) {before after : Progress σ} :
    term.factors.mapM (Factor.eval definer) before ≠ .ok [] after := by
  intro h
  rw [factors, List.mapM_cons] at h
  obtain ⟨_, _, _, hrest⟩ := Evaluation.bind_eq_ok_iff.1 h
  obtain ⟨_, _, _, ⟨⟩⟩ := Evaluation.bind_eq_ok_iff.1 hrest

/-- A product has a value exactly if its factors have values, one after the other, and these can be
multiplied from left to right. -/
theorem Term.IsProduct.eval_eq_ok_iff : ∀ {run : Term}, run.IsProduct →
    ∀ {value : Value} {before after : Progress σ},
      run.eval definer before = .ok value after ↔
        ∃ first rest, run.factors.mapM (Factor.eval definer) before = .ok (first :: rest) after ∧
          rest.foldlM Value.multiply first = .ok value
  | .factor last, _, value, before, after => by
    rw [Term.eval_factor]
    show _ ↔ ∃ first rest, ([] ++ [last]).mapM (Factor.eval definer) before = _ ∧ _
    simp only [Factor.mapM_eval_append_eq_ok_iff]
    constructor
    · intro h
      exact ⟨value, [], ⟨[], before, rfl, value, h, rfl⟩, rfl⟩
    · rintro ⟨first, rest, ⟨earlier, middle, ⟨⟩, given, hlast, hvalues⟩, hrest⟩
      cases hvalues
      cases hrest
      exact hlast
  | .join run op last, ⟨hop, hrun⟩, value, before, after => by
    subst hop
    rw [hrun.eval_join, Evaluation.bind_eq_ok_iff, Term.factors_join]
    simp only [Factor.mapM_eval_append_eq_ok_iff]
    constructor
    · rintro ⟨product, middle, hproduct, hlast⟩
      obtain ⟨first, rest, hfactors, hrest⟩ := hrun.eval_eq_ok_iff.1 hproduct
      obtain ⟨given, _, hgiven, hended⟩ := Evaluation.bind_eq_ok_iff.1 hlast
      obtain ⟨hmultiply, rfl⟩ := Evaluation.ofExcept_eq_ok_iff.1 hended
      exact ⟨first, rest ++ [given], ⟨_, middle, hfactors, given, hgiven, rfl⟩,
        Value.foldlM_multiply_append_eq_ok_iff.2 ⟨product, hrest, hmultiply⟩⟩
    · rintro ⟨first, rest, ⟨earlier, middle, hfactors, given, hgiven, hvalues⟩, hrest⟩
      cases earlier with
      | nil => exact absurd hfactors (run.mapM_factors_ne_nil definer)
      | cons _ earlier =>
        cases hvalues
        obtain ⟨product, hproduct, hmultiply⟩ := Value.foldlM_multiply_append_eq_ok_iff.1 hrest
        exact ⟨product, middle, hrun.eval_eq_ok_iff.2 ⟨first, earlier, hfactors, hproduct⟩,
          Evaluation.bind_eq_ok_iff.2
            ⟨given, after, hgiven, Evaluation.ofExcept_eq_ok_iff.2 ⟨hmultiply, rfl⟩⟩⟩

end Factors

/-! ## Dividing -/

/-- The class of the report on a divisor that is refused: a scalar is zero, and a matrix does not
divide at all. -/
def Kind.refusedDivisor : Kind → ReportClass
  | .scalar => .zeroDivision
  | .matrix => .mismatch

namespace Value

/-- A scalar other than zero. -/
def IsDivisor (value : Value) : Prop :=
  ∃ a : Fraction, value = .scalar a ∧ a.toRat ≠ 0

/-- Dividing by a scalar other than zero multiplies by its reciprocal. -/
theorem divide_scalar (value : Value) {a : Fraction} (h : a.toRat ≠ 0) :
    ∃ quotient, value.divide (.scalar a) = .ok quotient ∧
      IsMultiple a.toRat⁻¹ value quotient := by
  have hzero : a.isZero = false := by rwa [Bool.eq_false_iff, Ne, Fraction.isZero_iff]
  cases value with
  | scalar b =>
    refine ⟨.scalar (b.mul a.inv).reduce, ?_, .scalar ?_⟩
    · rw [divide, Fraction.reciprocal_eq_ok hzero]
      rfl
    · rw [Fraction.toRat_reduce, Fraction.toRat_mul, Fraction.toRat_inv, mul_comm]
  | matrix m =>
    refine ⟨.matrix (m.scale a.inv), ?_, .matrix ?_⟩
    · rw [divide, Fraction.reciprocal_eq_ok hzero]
      rfl
    · rw [Grid.values_scale, Fraction.toRat_inv]

/-- Any other divisor is refused, whatever it divides. -/
theorem divide_of_not_isDivisor (value : Value) {divisor : Value} (h : ¬ divisor.IsDivisor) :
    ∃ failure, value.divide divisor = .error failure ∧
      failure.ReportOf [divisor.kind.refusedDivisor] := by
  have hreport : ∀ cause : Cause, cause.numbers = [] →
      cause.reportClass = divisor.kind.refusedDivisor →
      (Failure.because cause).ReportOf [divisor.kind.refusedDivisor] :=
    fun cause hnumbers hclass => Failure.reportOf_because cause hnumbers (by simp [hclass])
  cases divisor with
  | scalar a =>
    have hzero : a.isZero = true := by
      rw [Fraction.isZero_iff]
      by_contra hne
      exact h ⟨a, rfl, hne⟩
    have hreciprocal : a.reciprocal = .error (Failure.because .reciprocalOfZero) := if_pos hzero
    refine ⟨_, ?_, hreport .reciprocalOfZero rfl rfl⟩
    cases value <;> rw [divide, hreciprocal] <;> rfl
  | matrix m =>
    cases value with
    | scalar b => exact ⟨_, rfl, hreport .scalarOverMatrix rfl rfl⟩
    | matrix n => exact ⟨_, rfl, hreport .matrixOverMatrix rfl rfl⟩

/-- Dividing by several scalars other than zero. -/
theorem foldlM_divide_scalars (first : Value) {scalars : List Fraction}
    (h : ∀ a ∈ scalars, a.toRat ≠ 0) :
    ∃ quotient, (scalars.map Value.scalar).foldlM divide first = .ok quotient ∧
      IsMultiple (scalars.map fun a => a.toRat⁻¹).prod first quotient := by
  induction scalars generalizing first with
  | nil => exact ⟨first, rfl, .one first⟩
  | cons a rest ih =>
    obtain ⟨ha, hrest⟩ := List.forall_mem_cons.1 h
    obtain ⟨middle, hmiddle, hmultiple⟩ := first.divide_scalar ha
    obtain ⟨quotient, hquotient, hmultiple'⟩ := ih middle hrest
    refine ⟨quotient, ?_, hmultiple.trans hmultiple'⟩
    rw [List.map_cons, List.foldlM_cons, hmiddle]
    exact hquotient

/-- Values that can be divided by are scalars other than zero. -/
theorem exists_scalars {divisors : List Value} (h : ∀ value ∈ divisors, value.IsDivisor) :
    ∃ scalars : List Fraction, divisors = scalars.map Value.scalar ∧
      ∀ a ∈ scalars, a.toRat ≠ 0 := by
  induction divisors with
  | nil => exact ⟨[], rfl, nofun⟩
  | cons value rest ih =>
    obtain ⟨⟨a, rfl, ha⟩, hrest⟩ := List.forall_mem_cons.1 h
    obtain ⟨scalars, rfl, hscalars⟩ := ih hrest
    exact ⟨a :: scalars, rfl, List.forall_mem_cons.2 ⟨ha, hscalars⟩⟩

/-- The first divisor that is none decides how a quotient fails. -/
theorem foldlM_divide_refused (first : Value) {good : List Value} (rest : List Value) {bad : Value}
    (hgood : ∀ value ∈ good, value.IsDivisor) (hbad : ¬ bad.IsDivisor) :
    ∃ failure, (good ++ bad :: rest).foldlM divide first = .error failure ∧
      failure.ReportOf [bad.kind.refusedDivisor] := by
  obtain ⟨scalars, rfl, hscalars⟩ := exists_scalars hgood
  obtain ⟨quotient, hquotient, -⟩ := first.foldlM_divide_scalars hscalars
  obtain ⟨failure, hfailure, hreport⟩ := quotient.divide_of_not_isDivisor hbad
  refine ⟨failure, ?_, hreport⟩
  rw [List.foldlM_append, hquotient]
  show (bad :: rest).foldlM divide quotient = _
  rw [List.foldlM_cons, hfailure]
  rfl

/-- Either all values divide, or there is a first one that does not. -/
theorem forall_isDivisor_or (values : List Value) :
    (∀ value ∈ values, value.IsDivisor) ∨ ∃ good bad rest, values = good ++ bad :: rest ∧
      (∀ value ∈ good, value.IsDivisor) ∧ ¬ bad.IsDivisor := by
  induction values with
  | nil => exact .inl nofun
  | cons value rest ih =>
    by_cases hvalue : value.IsDivisor
    · rcases ih with hall | ⟨good, bad, more, rfl, hgood, hbad⟩
      · exact .inl (List.forall_mem_cons.2 ⟨hvalue, hall⟩)
      · exact .inr ⟨value :: good, bad, more, rfl, List.forall_mem_cons.2 ⟨hvalue, hgood⟩, hbad⟩
    · exact .inr ⟨[], value, rest, rfl, nofun, hvalue⟩

/-- A value is divided by others, one after the other, exactly if each of them can be divided by. -/
theorem exists_foldlM_divide_iff (first : Value) (divisors : List Value) :
    (∃ value, divisors.foldlM divide first = .ok value) ↔
      ∀ value ∈ divisors, value.IsDivisor := by
  constructor
  · rintro ⟨value, hvalue⟩
    rcases forall_isDivisor_or divisors with hall | ⟨good, bad, rest, rfl, hgood, hbad⟩
    · exact hall
    · obtain ⟨failure, hfailure, -⟩ := first.foldlM_divide_refused rest hgood hbad
      rw [hfailure] at hvalue
      cases hvalue
  · intro hall
    obtain ⟨scalars, rfl, hne⟩ := exists_scalars hall
    obtain ⟨value, hvalue, -⟩ := first.foldlM_divide_scalars hne
    exact ⟨value, hvalue⟩

end Value

variable {σ : Type} {definer : Definer σ}

/-- A run has a value exactly if its factors have values that can be multiplied, and it is their
product. -/
theorem Term.eval_run_eq_ok_iff (term : Term) {run : Term}
    (hrun : run ∈ term.products.first :: term.products.later) {before after : Progress σ}
    {value : Value} :
    run.eval definer before = .ok value after ↔
      ∃ first rest, run.factors.mapM (Factor.eval definer) before = .ok (first :: rest) after ∧
        rest.foldlM Value.multiply first = .ok value ∧ first.IsProductOf rest value := by
  rw [(term.areProducts_products.isProduct run hrun).eval_eq_ok_iff]
  refine exists_congr fun first => exists_congr fun rest => and_congr_right fun _ => ?_
  exact (and_iff_left_of_imp Value.isProductOf_of_foldlM).symm

/-- A term whose runs have values is their quotient. -/
theorem Term.eval_of_runs {term : Term} {before middle after : Progress σ} {first : Value}
    {divisors : List Value} (hfirst : term.products.first.eval definer before = .ok first middle)
    (hlater : term.products.later.mapM (Term.eval definer) middle = .ok divisors after) :
    term.eval definer before =
      Evaluation.ofExcept (divisors.foldlM Value.divide first) after := by
  rw [eval_eq, Evaluation.bind_apply, hfirst]
  dsimp only
  rw [Evaluation.bind_apply, hlater]

/-- The runs of a term are its products between divisions, and writing parentheses around each of
them changes nothing: not the value as it is stored or the failure, nor the exchanges or the
slots. A run has a value exactly if its factors have values that can be multiplied from left to
right, and it is their product. Once all runs have values, the term has one exactly if the later
ones are scalars other than zero, and this is the first one times their reciprocals; otherwise the
first of them that is something else is reported. -/
theorem Term.eval_runs (definer : Definer σ) (term : Term) :
    (term.products.AreProducts ∧ term.products.unbracketed = term) ∧
    term.products.bracketed.eval definer = term.eval definer ∧
    (∀ run ∈ term.products.first :: term.products.later, ∀ before value after,
      run.eval definer before = .ok value after ↔
        ∃ first rest, run.factors.mapM (Factor.eval definer) before = .ok (first :: rest) after ∧
          rest.foldlM Value.multiply first = .ok value ∧ first.IsProductOf rest value) ∧
    ∀ before first middle divisors after,
      term.products.first.eval definer before = .ok first middle →
      term.products.later.mapM (Term.eval definer) middle = .ok divisors after →
      ((∃ value finish, term.eval definer before = .ok value finish) ↔
        ∀ value ∈ divisors, value.IsDivisor) ∧
      (∀ scalars : List Fraction, divisors = scalars.map Value.scalar →
        (∀ a ∈ scalars, a.toRat ≠ 0) →
        ∃ value, term.eval definer before = .ok value after ∧
          first.IsMultiple (scalars.map fun a => a.toRat⁻¹).prod value) ∧
      ∀ good bad rest, divisors = good ++ bad :: rest → (∀ value ∈ good, value.IsDivisor) →
        ¬ bad.IsDivisor → ∃ failure, term.eval definer before = .error failure after ∧
          failure.ReportOf [bad.kind.refusedDivisor] := by
  refine ⟨⟨term.areProducts_products, term.unbracketed_products⟩, term.eval_bracketed definer,
    fun run hrun before value after => term.eval_run_eq_ok_iff hrun, ?_⟩
  intro before first middle divisors after hfirst hlater
  have heval := Term.eval_of_runs hfirst hlater
  refine ⟨?_, ?_, ?_⟩
  · rw [heval, ← first.exists_foldlM_divide_iff]
    simp [Evaluation.ofExcept_eq_ok_iff]
  · rintro scalars rfl hne
    obtain ⟨value, hvalue, hmultiple⟩ := first.foldlM_divide_scalars hne
    exact ⟨value, by rw [heval, hvalue]; rfl, hmultiple⟩
  · rintro good bad rest rfl hgood hbad
    obtain ⟨failure, hfailure, hreport⟩ := first.foldlM_divide_refused rest hgood hbad
    exact ⟨failure, by rw [heval, hfailure]; rfl, hreport⟩

/-- `2*3/4*6/10` has the runs `2*3`, `4*6` and `10`, and is six over 240. In `A*3/(2-2)*4/B*5` the
second run is zero, which is reported before the third one, a matrix. -/
theorem Term.eval_runs_grouped :
    let definer : Definer Unit :=
      ⟨fun _ user => (none, user), fun _ user => (none, user), fun user => (none, user)⟩
    let before : Progress Unit := ⟨.fresh 2 2, (), []⟩
    let number (value : Nat) := Factor.mk false (.number value)
    let matrix (name : String) := Factor.mk false (.variable ⟨.matrix, some name⟩)
    let zero := Factor.mk false (.group (.mk
      (.join (.term (.factor (number 2))) .sub (.factor (number 2))) none))
    let times (first second : Factor) := Term.join (.factor first) .mul second
    let scalar (value : Int) := Value.scalar (.ofInt value)
    let quotient := Term.join (.join (.join (times (number 2) (number 3)) .div (number 4)) .mul
      (number 6)) .div (number 10)
    let refused := Term.join (.join (.join (.join (times (matrix "A") (number 3)) .div zero) .mul
      (number 4)) .div (matrix "B")) .mul (number 5)
    quotient.products = .quotient (.quotient (.single (times (number 2) (number 3)))
        (times (number 4) (number 6))) (.factor (number 10)) ∧
      (scalar 4).IsProductOf [scalar 6] (scalar 24) ∧
      (∃ value, quotient.eval definer before = .ok value before ∧
        (scalar 6).IsMultiple (24⁻¹ * 10⁻¹) value) ∧
      ∃ failure, refused.eval definer before = .error failure before ∧
        failure.ReportOf [.zeroDivision] := by
  intro definer before number matrix zero times scalar quotient refused
  have htimes (a b : Nat) : (times (number a) (number b)).eval definer before =
      .ok (scalar (a * b)) before := by
    show Evaluation.ofExcept ((scalar a).multiply (scalar b)) before = _
    rw [Value.multiply_ofInt]
    rfl
  obtain ⟨-, -, hruns, hquotient⟩ := Term.eval_runs definer quotient
  obtain ⟨-, -, -, hrefused⟩ := Term.eval_runs definer refused
  refine ⟨rfl, ?_, ?_, ?_⟩
  · have hfactors : (times (number 4) (number 6)).factors.mapM (Factor.eval definer) before =
        .ok [scalar 4, scalar 6] before := rfl
    obtain ⟨first, rest, hfound, -, hproduct⟩ :=
      (hruns _ (List.mem_cons_of_mem _ List.mem_cons_self) before _ before).1 (htimes 4 6)
    rw [hfactors] at hfound
    cases hfound
    exact hproduct
  · have hlater : quotient.products.later.mapM (Term.eval definer) before =
        .ok [scalar 24, scalar 10] before := by
      show [times (number 4) (number 6), .factor (number 10)].mapM (Term.eval definer) before = _
      rw [List.mapM_cons]
      exact Evaluation.bind_eq_ok_iff.2 ⟨scalar 24, before, htimes 4 6, rfl⟩
    obtain ⟨-, hscalars, -⟩ := hquotient before (scalar 6) before _ before (htimes 2 3) hlater
    simpa using hscalars [.ofInt 24, .ofInt 10] rfl (by simp)
  · -- The runs `(2-2)*4` and `B*5` are left as they are: only that the first is zero is needed.
    obtain ⟨-, -, hbad⟩ := hrefused before _ before _ before rfl rfl
    refine hbad [] _ [_] rfl nofun ?_
    rintro ⟨a, ha, hne⟩
    cases ha
    exact hne (by simp)

end MatrixCalc
