import MatrixCalc.Proofs.Evaluation.Line
import MatrixCalc.Proofs.Syntax.Kinds
import MatrixCalc.Proofs.Value

/-!
# Kinds are sound

`Expr.evaluate_kind_sound`: a line that has a kind never fails because scalars and matrices were
mixed up or a function was called wrongly, and if it succeeds its value is of that kind; a line
without a kind never succeeds.
-/

namespace MatrixCalc

variable {σ : Type}

/-! ## Failures about kinds -/

/-- Whether scalars and matrices were mixed up, or a function was called that is not there or does
not take such arguments. -/
def Cause.isKindError : Cause → Bool
  | .mixedSum | .scalarOverMatrix | .matrixOverMatrix | .matrixIntoScalar | .scalarIntoMatrix
  | .unknownFunction _ | .argumentCount .. | .argumentKinds .. => true
  | _ => false

/-- Whether a failure is about kinds. -/
def Failure.isKindError : Failure → Bool
  | .report shown => shown.cause.isKindError
  | .fault _ => false

/-- A failure that is not about kinds. -/
def Failure.NoKindError (failure : Failure) : Prop :=
  failure.isKindError = false

/-- A failure that is about kinds at most if there is no kind. -/
def Failure.KindErrorOnlyIf (ill : Prop) (failure : Failure) : Prop :=
  failure.isKindError = true → ill

/-- What is no error of kinds is one under any condition only. -/
theorem Failure.NoKindError.onlyIf {failure : Failure} (h : failure.NoKindError) (ill : Prop) :
    failure.KindErrorOnlyIf ill := by
  intro hkind
  rw [h] at hkind
  cases hkind

/-- A report that is not about kinds gives way to a fault at most. -/
theorem Failure.noKindError_because {cause : Cause} (h : cause.isKindError = false) :
    (because cause).NoKindError := by
  unfold because
  split
  · exact h
  · rfl

/-- A weaker condition for errors of kinds holds as well. -/
theorem Failure.KindErrorOnlyIf.mono {ill ill' : Prop} {failure : Failure}
    (h : failure.KindErrorOnlyIf ill) (hill : ill → ill') : failure.KindErrorOnlyIf ill' :=
  fun hkind => hill (h hkind)

open Failure (NoKindError KindErrorOnlyIf)

/-! ## Variables -/

/-- A name without a slot is no error of kinds. -/
theorem Slot.find_meets (name : String) : Meets (fun _ => True) NoKindError (find name) := by
  unfold find
  split
  · trivial
  · rfl

/-- A name without a matrix slot is no error of kinds. -/
theorem Slot.findMatrix_meets (name : String) :
    Meets (fun _ => True) NoKindError (findMatrix name) := by
  have hfind := find_meets name
  unfold findMatrix
  split
  · trivial
  · rfl
  · next herror =>
    rw [herror] at hfind
    exact hfind

/-- A name without a scalar slot is no error of kinds. -/
theorem Slot.findScalar_meets (name : String) :
    Meets (fun _ => True) NoKindError (findScalar name) := by
  have hfind := find_meets name
  unfold findScalar
  split
  · trivial
  · rfl
  · next herror =>
    rw [herror] at hfind
    exact hfind

/-- Writing under a name without a slot is no error of kinds. -/
theorem Slots.setNamed_meets (slots : Slots) (name : String) (value : Value) :
    Meets (fun _ => True) NoKindError (slots.setNamed name value) := by
  cases value with
  | matrix value => exact (Slot.findMatrix_meets name).map fun _ _ => trivial
  | scalar value => exact (Slot.findScalar_meets name).map fun _ _ => trivial

/-- A missing name is no error of kinds. -/
theorem VarRef.requireName_meets (ref : VarRef) :
    Meets (fun _ => True) NoKindError ref.requireName := by
  unfold requireName
  split
  · trivial
  · rfl

open Evaluation (Yields)

/-- A variable has values of its kind. -/
theorem VarRef.eval_yields (definer : Definer σ) (ref : VarRef) :
    Yields (fun value => value.kind = ref.kind.valueKind) NoKindError (ref.eval definer) := by
  have hwrite : ∀ value : Value, Yields (fun _ => True) NoKindError
      (Evaluation.write fun slots => ref.requireName >>= fun name => slots.setNamed name value :
        Evaluation σ Unit) :=
    fun value => .write fun slots => ref.requireName_meets.bind
      fun name _ => slots.setNamed_meets name value
  unfold VarRef.eval
  cases ref.kind with
  | matrix =>
    refine Yields.bind (P := fun _ => True) (.read fun slots => ?_) fun value _ => .pure rfl
    exact ref.requireName_meets.bind fun name _ =>
      (Slot.findMatrix_meets name).bind fun letter _ => trivial
  | scalar =>
    refine Yields.bind (P := fun _ => True) (.read fun slots => ?_) fun value _ => .pure rfl
    exact ref.requireName_meets.bind fun name _ =>
      (Slot.findScalar_meets name).bind fun letter _ => trivial
  | defineMatrix =>
    exact Yields.bind (P := fun _ => True) (.ask (fun _ => trivial) rfl) fun value _ =>
      (hwrite (.matrix value)).bind fun _ _ => .pure rfl
  | defineScalar =>
    exact Yields.bind (P := fun _ => True) (.ask (fun _ => trivial) rfl) fun value _ =>
      (hwrite (.scalar value)).bind fun _ _ => .pure rfl
  | defineAnonymous =>
    exact Yields.bind (P := fun _ => True) (.ask (fun _ => trivial) rfl) fun value _ => .pure rfl

/-! ## Operators -/

namespace Value

/-- A value and its opposite are of one kind. -/
@[simp] theorem kind_negate (value : Value) : value.negate.kind = value.kind := by
  cases value <;> rfl

/-- Values add up if they are of one kind, and then the sum is of this kind. -/
theorem combine_meets (a b : Value) (op : AddOp) :
    Meets (fun value => a.kind = b.kind ∧ value.kind = a.kind)
      (KindErrorOnlyIf (a.kind ≠ b.kind)) (a.combine op b) := by
  cases a with
  | scalar a =>
    cases b with
    | scalar b => exact ⟨rfl, rfl⟩
    | matrix b =>
      intro _ hkinds
      cases hkinds
  | matrix a =>
    cases b with
    | scalar b =>
      intro _ hkinds
      cases hkinds
    | matrix b =>
      have hadd : ∀ c : RatMatrix, Meets (fun _ => True) NoKindError (a.add c) := by
        intro c
        unfold RatMatrix.add
        split
        · trivial
        · rfl
      show Meets _ _ (if a.rows = b.rows ∧ a.cols = b.cols then _ else _)
      split
      · exact ((hadd _).mono (fun _ h => h) fun _ h => h.onlyIf _).map fun _ _ => ⟨rfl, rfl⟩
      · intro hkinds
        cases hkinds

/-- Values of all kinds multiply, and the product is a scalar if both are. -/
theorem multiply_meets (a b : Value) :
    Meets (fun value => value.kind = a.kind.times b.kind) NoKindError (a.multiply b) := by
  cases a with
  | scalar a => cases b <;> rfl
  | matrix a =>
    cases b with
    | scalar b => rfl
    | matrix b =>
      refine Meets.map (P := fun _ => True) ?_ fun _ _ => rfl
      unfold RatMatrix.multiply
      split
      · trivial
      · exact Failure.noKindError_because rfl

/-- Values are divided by scalars only, and then the quotient is of the kind of the dividend. -/
theorem divide_meets (a b : Value) :
    Meets (fun value => a.kind.dividedBy b.kind = some value.kind)
      (KindErrorOnlyIf (a.kind.dividedBy b.kind = none)) (a.divide b) := by
  have hreciprocal : ∀ {ill : Prop} (c : Fraction),
      Meets (fun _ => True) (KindErrorOnlyIf ill) c.reciprocal := by
    intro ill c
    unfold Fraction.reciprocal
    split
    · intro hkinds
      cases hkinds
    · trivial
  cases a with
  | scalar a =>
    cases b with
    | scalar b => exact (hreciprocal b).bind fun _ _ => rfl
    | matrix b => exact fun _ => rfl
  | matrix a =>
    cases b with
    | scalar b => exact (hreciprocal b).bind fun _ _ => rfl
    | matrix b => exact fun _ => rfl

end Value

/-! ## Functions -/

namespace Builtin

/-- A function that is checked to take arguments of these kinds does not refuse them. -/
theorem apply_meets {builtin : Builtin} {values : List Value}
    (hkinds : values.map Value.kind = builtin.signature) :
    Meets (fun _ => True) NoKindError (builtin.apply values) := by
  cases builtin with
  | augment =>
    obtain ⟨m, n, rfl⟩ := exists_matrices_of_kinds hkinds
    show Meets _ _ (m.augment n)
    unfold RatMatrix.augment
    split
    · trivial
    · rfl
  | identity =>
    obtain ⟨size, rfl⟩ := exists_scalar_of_kinds hkinds
    show Meets _ _ (identityOf size)
    unfold identityOf
    split
    · rfl
    · dsimp only
      split
      · rfl
      · trivial
  | invert =>
    obtain ⟨m, rfl⟩ := exists_matrix_of_kinds hkinds
    show Meets _ _ m.inverse
    unfold RatMatrix.inverse
    split
    · split
      · trivial
      · rfl
    · rfl
  | ref | rref | transpose =>
    obtain ⟨m, rfl⟩ := exists_matrix_of_kinds hkinds
    trivial

/-- A call gives a matrix. It fails because of kinds only if they are not those of the signature. -/
theorem call_meets (builtin : Builtin) (values : List Value) :
    Meets (fun value => values.map Value.kind = builtin.signature ∧ value.kind = .matrix)
      (KindErrorOnlyIf (values.map Value.kind ≠ builtin.signature)) (builtin.call values) := by
  unfold call
  cases hcheck : builtin.check values with
  | error failure =>
    intro _ hkinds
    rw [check_eq_ok_iff.2 hkinds] at hcheck
    cases hcheck
  | ok passed =>
    have hkinds := check_eq_ok_iff.1 hcheck
    exact ((apply_meets hkinds).mono (fun _ h => h) fun _ h => h.onlyIf _).bind
      fun _ _ => ⟨hkinds, rfl⟩

/-- Looking up a function is an error of kinds only if it is not there. -/
theorem find_meets (name : String) :
    Meets (fun builtin => find name = .ok builtin)
      (KindErrorOnlyIf ((find name).toOption = none)) (find name) := by
  cases hfind : find name with
  | ok builtin => rfl
  | error failure => exact fun _ => rfl

end Builtin

/-! ## Runs -/

namespace Runs

/-- The kind of the quotient of some runs, the latest of which comes first. -/
def quotientKind? (current : Value) : List Value → Option Kind
  | [] => some current.kind
  | previous :: earlier =>
      (quotientKind? previous earlier).bind fun kind => kind.dividedBy current.kind

/-- The kind of the value that the runs divide out to. -/
def kind? (runs : Runs) : Option Kind :=
  quotientKind? runs.current runs.closed

/-- Whether a division has closed a run. -/
def divided (runs : Runs) : Bool :=
  !runs.closed.isEmpty

/-- Runs divide out to the kind that their kinds say, and are an error of kinds only if these do not
divide. -/
theorem quotient_meets (closed : List Value) (current : Value) :
    Meets (fun value => quotientKind? current closed = some value.kind)
      (KindErrorOnlyIf (quotientKind? current closed = none))
      (Runs.mk closed current).divideAll := by
  -- the latest run is the last divisor, so the earlier ones have been divided before it
  induction closed generalizing current with
  | nil => rfl
  | cons previous earlier ih =>
    rw [divideAll_cons, quotientKind?]
    refine ((ih previous).mono (fun _ h => h) fun _ h => h.mono fun hnone => ?_).bind
      fun quotient hquotient => ?_
    · rw [hnone]
      rfl
    · rw [hquotient]
      exact quotient.divide_meets current

/-- One more factor changes the kind of runs as it changes the kind of a term. -/
theorem extend_meets (runs : Runs) (op : MulOp) (value : Value) :
    Meets
      (fun runs' =>
        runs'.kind? = (runs.kind?.bind fun kind =>
          if op = .div ∨ runs.divided = true then kind.dividedBy value.kind
          else some (kind.times value.kind)) ∧
        runs'.divided = (decide (op = .div) || runs.divided))
      NoKindError (runs.extend op value) := by
  obtain ⟨closed, current⟩ := runs
  cases op with
  | div => exact ⟨by simp [kind?, quotientKind?], by simp [divided]⟩
  | mul =>
    refine (current.multiply_meets value).map fun product hproduct => ⟨?_, by simp [divided]⟩
    cases closed with
    | nil => simp [kind?, quotientKind?, divided, hproduct]
    | cons previous earlier =>
      -- the open run is a divisor, which is a scalar if and only if all its factors are
      simp only [kind?, quotientKind?, hproduct, Option.bind_assoc]
      refine congrArg _ (funext fun kind => ?_)
      cases current.kind <;> cases value.kind <;> simp [Kind.times, Kind.dividedBy, divided]

end Runs

/-! ## Trees -/

namespace Evaluation

/-- An evaluation has values of a kind only, and fails because of kinds only if there is none. -/
def Sound (kind : Option Kind) (evaluation : Evaluation σ Value) : Prop :=
  Yields (fun value => kind = some value.kind) (KindErrorOnlyIf (kind = none)) evaluation

/-- The runs of a term have its kind, and are closed by a division if it divides. -/
def SoundRuns (term : Term) (evaluation : Evaluation σ Runs) : Prop :=
  Yields (fun runs => term.kind? = runs.kind? ∧ term.divided = runs.divided)
    (KindErrorOnlyIf (term.kind? = none)) evaluation

/-- A term whose runs are sound is sound. -/
theorem SoundRuns.divided {term : Term} {runs : Evaluation σ Runs} (h : SoundRuns term runs) :
    Sound term.kind? (Evaluation.divided runs) := by
  refine Yields.bind h fun runs hruns => .ofExcept ?_
  rw [hruns.1]
  exact Runs.quotient_meets runs.closed runs.current

end Evaluation

open Evaluation (Sound SoundRuns)

/-- A part of a tree is evaluated first; without a kind for it, there is none for the tree. -/
theorem Evaluation.bind_kind {α β : Type} {P : α → Prop} {Q : β → Prop} {ill ill' : Prop}
    {first : Evaluation σ α} {next : α → Evaluation σ β}
    (h : Yields P (KindErrorOnlyIf ill) first) (hill : ill → ill')
    (hnext : ∀ value, P value → Yields Q (KindErrorOnlyIf ill') (next value)) :
    Yields Q (KindErrorOnlyIf ill') (first >>= next) :=
  (h.mono (fun _ hvalue => hvalue) fun _ hfailure => hfailure.mono hill).bind hnext

mutual
/-- Evaluating an expression gives a value of the kind that the rules say, and an error of kinds
only if they say none. -/
theorem Expr.eval_sound (definer : Definer σ) (expr : Expr) :
    Sound expr.kind? (expr.eval definer) := by
  obtain ⟨sum, target⟩ := expr
  exact sum.eval_sound definer

@[inherit_doc Expr.eval_sound]
theorem Sum.eval_sound (definer : Definer σ) (sum : Sum) :
    Sound sum.kind? (sum.eval definer) := by
  cases sum with
  | term last => exact (last.evalRuns_sound definer).divided
  | join before op last =>
    have hlast : Sound last.kind? (Evaluation.divided (last.evalRuns definer)) :=
      (last.evalRuns_sound definer).divided
    refine Evaluation.bind_kind (before.eval_sound definer) (fun hnone => ?_) fun left hleft => ?_
    · rw [Sum.kind?, hnone]
      rfl
    refine Evaluation.bind_kind hlast (fun hnone => ?_) fun right hright => .ofExcept ?_
    · rw [Sum.kind?, hleft, hnone]
      rfl
    have hkind : (Sum.join before op last).kind? =
        if left.kind = right.kind then some left.kind else none := by
      rw [Sum.kind?, hleft, hright]
      rfl
    rw [hkind]
    refine (left.combine_meets right op).mono (fun value h => ?_) fun _ h => h.mono fun hne => ?_
    · rw [if_pos h.1, h.2]
    · rw [if_neg hne]

/-- Evaluating a term gives runs of the kinds that the rules say. -/
theorem Term.evalRuns_sound (definer : Definer σ) (term : Term) :
    SoundRuns term (term.evalRuns definer) := by
  cases term with
  | factor last =>
    exact Yields.bind (last.eval_sound definer) fun value hvalue => .pure ⟨hvalue, rfl⟩
  | join before op last =>
    refine Evaluation.bind_kind (before.evalRuns_sound definer) (fun hnone => ?_)
      fun runs hruns => ?_
    · rw [Term.kind?, hnone]
      rfl
    obtain ⟨hkind, hdivided⟩ := hruns
    refine Evaluation.bind_kind (last.eval_sound definer) (fun hnone => ?_)
      fun value hvalue => .ofExcept ?_
    · rw [Term.kind?, hnone]
      cases before.kind? <;> rfl
    -- a factor that does not suit the runs is refused only when they are divided
    refine (runs.extend_meets op value).mono (fun runs' h => ⟨?_, ?_⟩) fun _ h => h.onlyIf _
    · rw [h.1, Term.kind?, hkind, hvalue, hdivided]
      rfl
    · rw [h.2, Term.divided, hdivided]

@[inherit_doc Expr.eval_sound]
theorem Factor.eval_sound (definer : Definer σ) (factor : Factor) :
    Sound factor.kind? (factor.eval definer) := by
  obtain ⟨negated, operand⟩ := factor
  refine Yields.bind (operand.eval_sound definer) fun value hvalue => .pure ?_
  rw [Factor.kind?, hvalue]
  cases negated <;> simp

@[inherit_doc Expr.eval_sound]
theorem Operand.eval_sound (definer : Definer σ) (operand : Operand) :
    Sound operand.kind? (operand.eval definer) := by
  cases operand with
  | number value => exact .pure rfl
  | «variable» ref =>
    refine (ref.eval_yields definer).mono (fun value h => ?_) fun _ h => h.onlyIf _
    rw [Operand.kind?, h]
  | group expr => exact expr.eval_sound definer
  | call function supplied =>
    refine Evaluation.bind_kind (.ofExcept (Builtin.find_meets function)) (fun hnone => ?_)
      fun builtin hbuiltin => ?_
    · rw [Operand.kind?, hnone]
      rfl
    have hfind : (Builtin.find function).toOption = some builtin := by rw [hbuiltin]; rfl
    refine Evaluation.bind_kind (supplied.eval_sound definer) (fun hnone => ?_)
      fun values hvalues => .ofExcept ?_
    · rw [Operand.kind?, hfind, hnone]
      rfl
    have hkind : (Operand.call function supplied).kind? =
        if values.map Value.kind = builtin.signature then some .matrix else none := by
      rw [Operand.kind?, hfind, hvalues]
      rfl
    rw [hkind]
    refine (builtin.call_meets values).mono (fun value h => ?_) fun _ h => h.mono fun hne => ?_
    · rw [if_pos h.1, h.2]
    · rw [if_neg hne]

/-- The values of arguments are of their kinds. -/
theorem Arguments.eval_sound (definer : Definer σ) (supplied : Arguments) :
    Yields (fun values => supplied.kinds? = some (values.map Value.kind))
      (KindErrorOnlyIf (supplied.kinds? = none)) (supplied.eval definer) := by
  cases supplied with
  | nil => exact .pure rfl
  | cons first rest =>
    refine Evaluation.bind_kind (first.eval_sound definer) (fun hnone => ?_)
      fun value hvalue => ?_
    · rw [Arguments.kinds?, hnone]
      rfl
    refine Evaluation.bind_kind (rest.eval_sound definer) (fun hnone => ?_)
      fun values hvalues => .pure ?_
    · rw [Arguments.kinds?, hvalue, hnone]
      rfl
    · rw [Arguments.kinds?, hvalue, hvalues]
      rfl
end

/-! ## Lines -/

namespace Expr

/-- A target that cannot be assigned to is no error of kinds. -/
theorem targetName_meets (target : VarRef) :
    Meets (fun _ => target.defines = false) NoKindError (targetName target) := by
  unfold targetName
  split
  · next hdefines => exact hdefines
  · rfl

/-- A target refuses values of the other kind, and these only. -/
theorem checkTarget_meets {target : VarRef} (hdefines : target.defines = false) (value : Value) :
    Meets (fun _ => value.kind = target.kind.valueKind)
      (KindErrorOnlyIf (value.kind ≠ target.kind.valueKind)) (checkTarget target value) := by
  cases hcheck : checkTarget target value with
  | ok checked => exact (checkTarget_eq_ok_iff hdefines).1 hcheck
  | error failure =>
    intro _ hkind
    rw [(checkTarget_eq_ok_iff hdefines).2 hkind] at hcheck
    cases hcheck

/-- Evaluating a line gives a value of the kind that the rules say, and an error of kinds only if
they say none. -/
theorem evaluate_sound (definer : Definer σ) (expr : Expr) :
    Yields (fun outcome => expr.lineKind? = some outcome.value.kind)
      (KindErrorOnlyIf (expr.lineKind? = none)) (expr.evaluate definer) := by
  obtain ⟨sum, target⟩ := expr
  have hlast : ∀ (value : Value) (name : Option String) {ill : Prop},
      Yields (fun outcome : Outcome => outcome.value = value) (KindErrorOnlyIf ill)
        (do Evaluation.write (fun slots => .ok (slots.setLast value)); pure ⟨value, name⟩ :
          Evaluation σ Outcome) :=
    fun value name ill => Yields.bind (.write fun slots => trivial) fun _ _ => .pure rfl
  cases target with
  | none =>
    refine Yields.bind (sum.eval_sound definer) fun value hvalue => ?_
    refine (hlast value none).mono (fun outcome h => ?_) fun _ h => h
    rw [h]
    exact hvalue
  | some target =>
    refine Yields.bind (.ofExcept ((targetName_meets target).mono (fun _ h => h)
      fun _ h => h.onlyIf _)) fun name hdefines => ?_
    refine Evaluation.bind_kind (sum.eval_sound definer) (fun hnone => ?_) fun value hvalue => ?_
    · rw [lineKind?, hnone]
      rfl
    have hkind : (mk sum (some target)).lineKind? =
        if value.kind = target.kind.valueKind then some value.kind else none := by
      rw [lineKind?, hvalue]
      rfl
    refine Evaluation.bind_kind (.ofExcept (checkTarget_meets hdefines value)) (fun hne => ?_)
      fun _ htarget => ?_
    · rw [hkind, if_neg hne]
    refine Yields.bind (.write fun slots => (slots.setNamed_meets name value).mono
      (fun _ h => h) fun _ h => h.onlyIf _) fun _ _ => ?_
    refine (hlast value (some name)).mono (fun outcome h => ?_) fun _ h => h
    rw [hkind, if_pos htarget, h]

/-- Static kinds are sound. A line with a kind never fails because of kinds, and if it succeeds
its value is of this kind; a line without a kind never succeeds. -/
theorem evaluate_kind_sound (definer : Definer σ) (expr : Expr) (before : Progress σ) :
    (∀ kind, expr.lineKind? = some kind →
      match expr.evaluate definer before with
      | .ok outcome _ => outcome.value.kind = kind
      | .error failure _ => failure.isKindError = false) ∧
    (expr.lineKind? = none →
      ∃ failure after, expr.evaluate definer before = .error failure after) := by
  have hsound := evaluate_sound definer expr before
  cases hresult : expr.evaluate definer before with
  | ok outcome after =>
    rw [hresult] at hsound
    refine ⟨fun kind hkind => ?_, fun hnone => ?_⟩
    · exact Option.some.inj (hsound.symm.trans hkind)
    · rw [hnone] at hsound
      cases hsound
  | error failure after =>
    rw [hresult] at hsound
    refine ⟨fun kind hkind => Bool.eq_false_iff.2 fun hfailure => ?_, fun _ => ⟨_, _, rfl⟩⟩
    rw [hsound hfailure] at hkind
    cases hkind

/-- `2 / A * b` has no kind and fails; `A * 2 / b` is a matrix and does not fail because of
kinds. -/
theorem evaluate_kind_sound_quotients :
    let definer : Definer Unit :=
      ⟨fun _ user => (none, user), fun _ user => (none, user), fun user => (none, user)⟩
    let before : Progress Unit := ⟨.fresh 2 2, (), []⟩
    let number := Factor.mk false (.number 2)
    let matrix := Factor.mk false (.variable ⟨.matrix, some "A"⟩)
    let scalar := Factor.mk false (.variable ⟨.scalar, some "b"⟩)
    let bad := Expr.mk (.term (.join (.join (.factor number) .div matrix) .mul scalar)) none
    let good := Expr.mk (.term (.join (.join (.factor matrix) .mul number) .div scalar)) none
    (∃ failure after, bad.evaluate definer before = .error failure after) ∧
      match good.evaluate definer before with
      | .ok outcome _ => outcome.value.kind = .matrix
      | .error failure _ => failure.isKindError = false := by
  intro definer before number matrix scalar bad good
  exact ⟨(evaluate_kind_sound definer bad before).2 rfl,
    (evaluate_kind_sound definer good before).1 .matrix rfl⟩

end Expr

end MatrixCalc
