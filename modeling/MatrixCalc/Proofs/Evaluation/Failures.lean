import MatrixCalc.Proofs.Evaluation.Basic
import MatrixCalc.Proofs.Failure
import MatrixCalc.Proofs.Value

/-!
# What operations on values fail with

One lemma for each operation of the language says which reports it can fail with. Two failures
have a condition on the values: only a scalar that is zero is reported as a divisor
(`Value.divide_fails`), and a report about the sizes of a product gives way to a fault exactly if
one of them is too long to be written (`Value.SizesRefused.report_or_fault`). `FailsBy` traces the
failure of a result to the operation that failed.
-/

namespace MatrixCalc

open Failure (ReportOf reportOf_because)

/-! ## Operators -/

namespace Value

/-- A sum fails for its kinds or for its sizes. -/
theorem combine_fails (a b : Value) (op : AddOp) :
    Meets (fun _ => True) (ReportOf [.mismatch, .dimension]) (a.combine op b) := by
  cases a with
  | scalar a =>
    cases b with
    | scalar b => trivial
    | matrix b => exact reportOf_because .mixedSum rfl (by decide)
  | matrix a =>
    cases b with
    | scalar b => exact reportOf_because .mixedSum rfl (by decide)
    | matrix b =>
      have hadd : ∀ c : RatMatrix,
          Meets (fun _ => True) (ReportOf [.mismatch, .dimension]) (a.add c) := by
        intro c
        unfold RatMatrix.add
        split
        · trivial
        · exact reportOf_because .additionSizes rfl (by decide)
      show Meets _ _ (if a.rows = b.rows ∧ a.cols = b.cols then _ else _)
      split
      · exact (hadd _).map fun _ _ => trivial
      · exact reportOf_because .summandSizes rfl (by decide)

/-- The failure of a product of matrices of these sizes. -/
def SizesRefused (left right : RatMatrix) (failure : Failure) : Prop :=
  left.cols ≠ right.rows ∧
    failure = Failure.because (.productSizes left.rows left.cols right.rows right.cols)

/-- Only matrices have no product, and only because of their sizes. -/
theorem multiply_fails (a b : Value) :
    Meets (fun _ => True)
      (fun failure => ∃ left right, a = .matrix left ∧ b = .matrix right ∧
        SizesRefused left right failure)
      (a.multiply b) := by
  cases a with
  | scalar a => cases b <;> trivial
  | matrix a =>
    cases b with
    | scalar b => trivial
    | matrix b =>
      refine Meets.map (P := fun _ => True) ?_ fun _ _ => trivial
      unfold RatMatrix.multiply
      split
      · trivial
      · next hsizes => exact ⟨a, b, rfl, rfl, hsizes, rfl⟩

/-- A division by a scalar fails only if the scalar is zero. -/
theorem divide_fails (a b : Value) :
    Meets (fun _ => True)
      (fun failure => failure.ReportOf [.mismatch] ∨
        failure.ReportOf [.zeroDivision] ∧ ∃ divisor, b = .scalar divisor ∧ divisor.isZero = true)
      (a.divide b) := by
  have hreciprocal : ∀ divisor : Fraction, Meets (fun _ => True)
      (fun failure => failure.ReportOf [.zeroDivision] ∧ divisor.isZero = true)
      divisor.reciprocal := by
    intro divisor
    unfold Fraction.reciprocal
    split
    · next hzero => exact ⟨reportOf_because .reciprocalOfZero rfl (by decide), hzero⟩
    · trivial
  cases b with
  | scalar divisor =>
    have hquotient := (hreciprocal divisor).mono (fun _ h => h) fun failure h =>
      (show failure.ReportOf [.mismatch] ∨ failure.ReportOf [.zeroDivision] ∧
        ∃ zero, Value.scalar divisor = .scalar zero ∧ zero.isZero = true from
        .inr ⟨h.1, divisor, rfl, h.2⟩)
    cases a with
    | scalar a => exact hquotient.bind fun _ _ => trivial
    | matrix a => exact hquotient.bind fun _ _ => trivial
  | matrix b =>
    cases a with
    | scalar a => exact .inl (reportOf_because .scalarOverMatrix rfl (by decide))
    | matrix a => exact .inl (reportOf_because .matrixOverMatrix rfl (by decide))

end Value

/-- A report about the sizes of a product gives way to a fault if one of them cannot be
written. -/
theorem Value.SizesRefused.report_or_fault {left right : RatMatrix} {failure : Failure}
    (h : SizesRefused left right failure) :
    failure.ReportOf [.dimension] ∨ failure = .fault .tooLongToWrite ∧
      ∃ size ∈ [(left.rows : Int), left.cols, right.rows, right.cols],
        Numeral.fits size = false := by
  rw [h.2]
  by_cases hfits : (Cause.productSizes left.rows left.cols right.rows right.cols).numbers.all
      Numeral.fits = true
  · rw [Failure.because_of_fits hfits]
    exact .inl List.mem_cons_self
  · rw [Failure.because_of_long hfits]
    refine .inr ⟨rfl, ?_⟩
    simpa only [Cause.numbers, List.all_eq_true, not_forall, Bool.not_eq_true, exists_prop]
      using hfits

/-! ## Functions -/

namespace Builtin

/-- Looking up a function fails if it is not there. -/
theorem find_fails (name : String) :
    Meets (fun _ => True) (ReportOf [.unknownFunction]) (find name) := by
  unfold find
  split
  · trivial
  · exact reportOf_because (.unknownFunction name) rfl List.mem_cons_self

/-- Arguments are refused for their number or for their kinds. -/
theorem check_fails (builtin : Builtin) (values : List Value) :
    Meets (fun _ => values.map Value.kind = builtin.signature) (ReportOf [.signature])
      (builtin.check values) := by
  cases hcheck : builtin.check values with
  | ok passed => exact check_eq_ok_iff.1 hcheck
  | error failure =>
    unfold check at hcheck
    dsimp only at hcheck
    split at hcheck
    · cases hcheck
      exact reportOf_because (.argumentCount _ _ _) rfl List.mem_cons_self
    · split at hcheck
      · cases hcheck
        exact reportOf_because (.argumentKinds _ _ _) rfl List.mem_cons_self
      · cases hcheck

/-- Of the right arguments a function refuses sizes that do not fit, a singular matrix, or a number
that is no size. -/
theorem apply_fails {builtin : Builtin} {values : List Value}
    (hkinds : values.map Value.kind = builtin.signature) :
    Meets (fun _ => True) (ReportOf [.dimension, .singular, .invalidArgument])
      (builtin.apply values) := by
  cases builtin with
  | augment =>
    obtain ⟨m, n, rfl⟩ := exists_matrices_of_kinds hkinds
    show Meets _ _ (m.augment n)
    unfold RatMatrix.augment
    split
    · trivial
    · exact reportOf_because .augmentedRows rfl (by decide)
  | identity =>
    obtain ⟨size, rfl⟩ := exists_scalar_of_kinds hkinds
    show Meets _ _ (identityOf size)
    unfold identityOf
    split
    · exact reportOf_because .fractionalSize rfl (by decide)
    · dsimp only
      split
      · exact reportOf_because .sizeBelowZero rfl (by decide)
      · trivial
  | invert =>
    obtain ⟨m, rfl⟩ := exists_matrix_of_kinds hkinds
    show Meets _ _ m.inverse
    unfold RatMatrix.inverse
    split
    · split
      · trivial
      · exact reportOf_because .singular rfl (by decide)
    · exact reportOf_because .inverseOfNonSquare rfl (by decide)
  | ref | rref | transpose =>
    obtain ⟨m, rfl⟩ := exists_matrix_of_kinds hkinds
    trivial

/-- A call fails for its arguments or as the function does. -/
theorem call_fails (builtin : Builtin) (values : List Value) :
    Meets (fun _ => True) (ReportOf [.signature, .dimension, .singular, .invalidArgument])
      (builtin.call values) := by
  have hcheck : Meets (fun _ => values.map Value.kind = builtin.signature)
      (ReportOf [.signature, .dimension, .singular, .invalidArgument]) (builtin.check values) :=
    (builtin.check_fails values).mono (fun _ h => h) fun _ h => h.mono (by decide)
  refine hcheck.bind fun _ hkinds => ?_
  exact ((apply_fails hkinds).mono (fun _ h => h) fun _ h => h.mono (by decide)).bind
    fun _ _ => trivial

end Builtin

/-! ## Operations -/

/-- What an evaluation does with values and may fail at. -/
inductive Operation where
  | combine (op : AddOp) (left right : Value)
  | multiply (left right : Value)
  | divide (left right : Value)
  | find (function : String)
  | call (builtin : Builtin) (arguments : List Value)

/-- An operation fails in some way. -/
def Operation.Fails (operation : Operation) (failure : Failure) : Prop :=
  match operation with
  | combine op left right => left.combine op right = .error failure
  | multiply left right => left.multiply right = .error failure
  | divide left right => left.divide right = .error failure
  | find function => Builtin.find function = .error failure
  | call builtin arguments => builtin.call arguments = .error failure

/-- The failure of a result has the property of its failures. -/
theorem Meets.of_error {α : Type} {P : α → Prop} {E : Failure → Prop} {result : Except Failure α}
    {failure : Failure} (h : Meets P E result) (herror : result = .error failure) :
    E failure := by
  rw [herror] at h
  exact h

/-- No operation fails as a request that is cancelled does. -/
theorem Operation.Fails.ne_cancelled {operation : Operation} {failure : Failure}
    (h : operation.Fails failure) : failure ≠ Failure.because .cancelled := by
  cases operation with
  | combine op left right =>
    exact ((left.combine_fails right op).of_error h).ne_cancelled (by decide)
  | multiply left right =>
    obtain ⟨m, n, -, -, hsizes⟩ := (left.multiply_fails right).of_error h
    rcases hsizes.report_or_fault with hreport | ⟨rfl, -⟩
    · exact hreport.ne_cancelled (by decide)
    · nofun
  | divide left right =>
    rcases (left.divide_fails right).of_error h with hreport | ⟨hreport, -⟩
    · exact hreport.ne_cancelled (by decide)
    · exact hreport.ne_cancelled (by decide)
  | find function => exact ((Builtin.find_fails function).of_error h).ne_cancelled (by decide)
  | call builtin arguments =>
    exact ((builtin.call_fails arguments).of_error h).ne_cancelled (by decide)

/-- A result is a failure only if one of some operations fails in the same way. -/
def FailsBy {α : Type} (deeds : Operation → Prop) : Except Failure α → Prop :=
  Meets (fun _ => True) fun failure => ∃ operation, deeds operation ∧ operation.Fails failure

/-- A result that can only fail as one operation does fails by this operation. -/
theorem FailsBy.of_error {α : Type} {operation : Operation} {result : Except Failure α}
    (h : ∀ failure, result = .error failure → operation.Fails failure) :
    FailsBy (· = operation) result := by
  cases result with
  | ok value => trivial
  | error failure => exact ⟨operation, rfl, h failure rfl⟩

/-- What fails by some operations fails by these and others. -/
theorem FailsBy.mono {α : Type} {deeds deeds' : Operation → Prop} {result : Except Failure α}
    (h : FailsBy deeds result) (hdeeds : ∀ operation, deeds operation → deeds' operation) :
    FailsBy deeds' result :=
  Meets.mono h (fun _ _ => trivial) fun _ ⟨operation, hdone, hfails⟩ =>
    ⟨operation, hdeeds operation hdone, hfails⟩

/-- No operation fails as a cancelled request does. -/
theorem FailsBy.ne_cancelled {α : Type} {deeds : Operation → Prop} {result : Except Failure α}
    (h : FailsBy deeds result) :
    Meets (fun _ => True) (· ≠ Failure.because .cancelled) result :=
  Meets.mono h (fun _ _ => trivial) fun _ ⟨_, _, hfails⟩ => hfails.ne_cancelled

/-- A sum fails by adding its values. -/
theorem Value.combine_failsBy (left right : Value) (op : AddOp) :
    FailsBy (· = .combine op left right) (left.combine op right) :=
  .of_error fun _ h => h

/-- A product fails by multiplying its values. -/
theorem Value.multiply_failsBy (left right : Value) :
    FailsBy (· = .multiply left right) (left.multiply right) :=
  .of_error fun _ h => h

/-- A quotient fails by dividing its values. -/
theorem Value.divide_failsBy (left right : Value) :
    FailsBy (· = .divide left right) (left.divide right) :=
  .of_error fun _ h => h

/-- A lookup fails by looking up this function. -/
theorem Builtin.find_failsBy (function : String) : FailsBy (· = .find function) (find function) :=
  .of_error fun _ h => h

/-- A call fails by calling this function. -/
theorem Builtin.call_failsBy (builtin : Builtin) (arguments : List Value) :
    FailsBy (· = .call builtin arguments) (builtin.call arguments) :=
  .of_error fun _ h => h

namespace Runs

/-- The divisions by which some runs become one value, the latest run being the last divisor. -/
def DividesBy (current : Value) (closed : List Value) (operation : Operation) : Prop :=
  match closed with
  | [] => False
  | previous :: earlier =>
      DividesBy previous earlier operation ∨
        ∃ quotient, (Runs.mk earlier previous).divideAll = .ok quotient ∧
          operation = .divide quotient current

/-- The quotient of runs fails by dividing a quotient of the first of them by a later one. -/
theorem divideAll_failsBy (closed : List Value) (current : Value) :
    FailsBy (DividesBy current closed) (Runs.mk closed current).divideAll := by
  induction closed generalizing current with
  | nil => trivial
  | cons previous earlier ih =>
    have hearlier := ih previous
    rw [divideAll_cons]
    cases hquotient : (Runs.mk earlier previous).divideAll with
    | error failure =>
      rw [hquotient] at hearlier
      obtain ⟨operation, hdone, hfails⟩ := hearlier
      exact ⟨operation, .inl hdone, hfails⟩
    | ok quotient =>
      exact (quotient.divide_failsBy current).mono fun operation hdone =>
        .inr ⟨quotient, hquotient, hdone⟩

/-- What is done to runs when one more factor is taken. -/
def ExtendsBy (runs : Runs) (op : MulOp) (value : Value) (operation : Operation) : Prop :=
  op = .mul ∧ operation = .multiply runs.current value

/-- One more factor makes runs fail by multiplying it to the open one. -/
theorem extend_failsBy (runs : Runs) (op : MulOp) (value : Value) :
    FailsBy (runs.ExtendsBy op value) (runs.extend op value) := by
  cases op with
  | mul =>
    exact ((runs.current.multiply_failsBy value).mono fun operation hdone => ⟨rfl, hdone⟩).map
      fun _ _ => trivial
  | div => trivial

end Runs

end MatrixCalc
