import MatrixCalc.Builtin
import MatrixCalc.Slots
import MatrixCalc.Syntax.Parse

/-!
# Evaluation

Expressions are evaluated from left to right against the variable slots. `$A`, `$a` and `$$` ask a
`Definer` for a value when they are reached, and a named one is stored at once; such writes stay
even if the evaluation fails later. `Expr.evaluate` stores the value of a line in the variable
named by its arrow, and then as the last result of its kind.

In a term, factors joined by `*` form a run that is multiplied first; the runs are divided from
left to right when all factors have been evaluated. So `2*3/4*6/10` is `(2*3)/(4*6)/10`.
-/

namespace MatrixCalc

/-- Supplies values for variables that are to be defined, from a state of its own. No value means
that the user cancelled. -/
structure Definer (σ : Type) where
  matrix : String → σ → Option RatMatrix × σ
  scalar : String → σ → Option Fraction × σ
  anonymous : σ → Option RatMatrix × σ

/-- A request for a value, and the answer to it. -/
inductive Exchange where
  | matrix (name : String) (answer : Option RatMatrix)
  | scalar (name : String) (answer : Option Fraction)
  | anonymous (answer : Option RatMatrix)
  deriving DecidableEq

/-- What was asked for, as it is written in an expression. -/
def Exchange.request : Exchange → String
  | matrix name _ | scalar name _ => "$" ++ name
  | anonymous _ => "$$"

/-- The state of an evaluation: the slots, the state of the definer, and the exchanges so far. -/
structure Progress (σ : Type) where
  slots : Slots
  user : σ
  exchanges : List Exchange

/-- A computation on the state of an evaluation, which it also leaves behind when it fails. -/
abbrev Evaluation (σ : Type) := EStateM Failure (Progress σ)

/-- What a line evaluates to, and the name of the variable that it was assigned to. -/
structure Outcome where
  value : Value
  target : Option String
  deriving DecidableEq

namespace Evaluation

variable {σ : Type}

/-- A result that does not depend on the state. -/
def ofExcept {α : Type} : Except Failure α → Evaluation σ α
  | .ok value => pure value
  | .error failure => throw failure

/-- Reads from the slots. -/
def read {α : Type} (look : Slots → Except Failure α) : Evaluation σ α := do
  let progress ← get
  ofExcept (look progress.slots)

/-- Changes the slots, if that is possible. -/
def write (change : Slots → Except Failure Slots) : Evaluation σ Unit := do
  let progress ← get
  let slots ← ofExcept (change progress.slots)
  set { progress with slots }

/-- Asks the definer for a value and takes down the exchange. -/
def ask {α : Type} (answer : σ → Option α × σ) (exchange : Option α → Exchange) :
    Evaluation σ α := do
  let progress ← get
  let (value, user) := answer progress.user
  set { progress with user, exchanges := progress.exchanges ++ [exchange value] }
  match value with
  | some value => pure value
  | none => throw (Failure.because .cancelled)

end Evaluation

namespace Value

/-- The sum or difference of two values of one kind. -/
def combine (op : AddOp) : Value → Value → Except Failure Value
  | .scalar a, .scalar b =>
      let summand := match op with
        | .add => b
        | .sub => b.neg
      .ok (.scalar (a.add summand))
  | .matrix a, .matrix b =>
      if a.rows = b.rows ∧ a.cols = b.cols then
        let summand := match op with
          | .add => b
          | .sub => b.negate
        (a.add summand).map .matrix
      else .error (Failure.because .summandSizes)
  | _, _ => .error (Failure.because .mixedSum)

/-- The product of two values. That of two scalars is in lowest terms. -/
def multiply : Value → Value → Except Failure Value
  | .scalar a, .scalar b => .ok (.scalar (a.mul b).reduce)
  | .scalar a, .matrix b => .ok (.matrix (b.scale a))
  | .matrix a, .scalar b => .ok (.matrix (a.scale b))
  | .matrix a, .matrix b => (a.multiply b).map .matrix

/-- The quotient of two values. Only scalars divide. -/
def divide : Value → Value → Except Failure Value
  | .scalar a, .scalar b => do
      let factor ← b.reciprocal
      .ok (.scalar (a.mul factor).reduce)
  | .scalar _, .matrix _ => .error (Failure.because .scalarOverMatrix)
  | .matrix a, .scalar b => do
      let factor ← b.reciprocal
      .ok (.matrix (a.scale factor))
  | .matrix _, .matrix _ => .error (Failure.because .matrixOverMatrix)

/-- The value with the opposite sign. -/
def negate : Value → Value
  | .scalar a => .scalar (a.mul (.ofInt (-1)))
  | .matrix a => .matrix a.negate

end Value

/-- The runs of a term that was evaluated up to some factor: those that a division has closed, the
latest first, and the one that is still open. -/
structure Runs where
  closed : List Value
  current : Value
  deriving DecidableEq

namespace Runs

/-- The first factor opens a run. -/
def single (value : Value) : Runs :=
  ⟨[], value⟩

/-- Takes one more factor: a product extends the open run, a division closes it. -/
def extend (runs : Runs) (op : MulOp) (value : Value) : Except Failure Runs :=
  match op with
  | .mul => (runs.current.multiply value).map fun product => ⟨runs.closed, product⟩
  | .div => .ok ⟨runs.current :: runs.closed, value⟩

/-- Divides the first run by the others, from left to right. -/
def divideAll (runs : Runs) : Except Failure Value :=
  match (runs.current :: runs.closed).reverse with
  | [] => .ok runs.current
  | first :: divisors => divisors.foldlM Value.divide first

end Runs

variable {σ : Type}

/-- The name in a reference to a variable. -/
def VarRef.requireName (ref : VarRef) : Except Failure String :=
  match ref.name with
  | some name => .ok name
  | none => .error (.fault .missingName)

/-- The value of a variable. A definition is asked for before the name of its slot is looked at,
and a scalar that was defined is read back as it is stored. -/
def VarRef.eval (definer : Definer σ) (ref : VarRef) : Evaluation σ Value :=
  match ref.kind with
  | .matrix => do
      let value ← Evaluation.read fun slots => ref.requireName >>= slots.getMatrixNamed
      pure (.matrix value)
  | .scalar => do
      let value ← Evaluation.read fun slots => ref.requireName >>= slots.getScalarNamed
      pure (.scalar value)
  | .defineMatrix => do
      let value ← Evaluation.ask (definer.matrix ref.shownName) (.matrix ref.shownName)
      Evaluation.write fun slots =>
        ref.requireName >>= fun name => slots.setNamed name (.matrix value)
      pure (.matrix value)
  | .defineScalar => do
      let value ← Evaluation.ask (definer.scalar ref.shownName) (.scalar ref.shownName)
      Evaluation.write fun slots =>
        ref.requireName >>= fun name => slots.setNamed name (.scalar value)
      pure (.scalar value.reduce)
  | .defineAnonymous => do
      let value ← Evaluation.ask definer.anonymous .anonymous
      pure (.matrix value)

/-- The value of a term whose runs are known. -/
def Evaluation.divided (runs : Evaluation σ Runs) : Evaluation σ Value := do
  let runs ← runs
  Evaluation.ofExcept runs.divideAll

mutual
/-- The value of an expression. A target is not assigned here. -/
def Expr.eval (definer : Definer σ) : Expr → Evaluation σ Value
  | .mk sum _ => sum.eval definer

/-- The value of a sum, added up from left to right. Each term is divided out when its factors
have been evaluated. -/
def Sum.eval (definer : Definer σ) : Sum → Evaluation σ Value
  | .term last => Evaluation.divided (last.evalRuns definer)
  | .join before op last => do
      let left ← before.eval definer
      let right ← Evaluation.divided (last.evalRuns definer)
      Evaluation.ofExcept (left.combine op right)

/-- The runs of a term. -/
def Term.evalRuns (definer : Definer σ) : Term → Evaluation σ Runs
  | .factor last => do
      let value ← last.eval definer
      pure (.single value)
  | .join before op last => do
      let runs ← before.evalRuns definer
      let value ← last.eval definer
      Evaluation.ofExcept (runs.extend op value)

/-- The value of a factor. -/
def Factor.eval (definer : Definer σ) : Factor → Evaluation σ Value
  | .mk negated operand => do
      let value ← operand.eval definer
      pure (if negated then value.negate else value)

/-- The value of an operand. The function of a call is looked up before its arguments are
evaluated. -/
def Operand.eval (definer : Definer σ) : Operand → Evaluation σ Value
  | .number value => pure (.scalar (.ofInt value))
  | .variable ref => ref.eval definer
  | .group expr => expr.eval definer
  | .call function supplied => do
      let builtin ← Evaluation.ofExcept (Builtin.find function)
      let values ← supplied.eval definer
      Evaluation.ofExcept (builtin.call values)

/-- The values of arguments, from left to right. -/
def Arguments.eval (definer : Definer σ) : Arguments → Evaluation σ (List Value)
  | .nil => pure []
  | .cons first rest => do
      let value ← first.eval definer
      let values ← rest.eval definer
      pure (value :: values)
end

/-- The value of a term. -/
def Term.eval (definer : Definer σ) (term : Term) : Evaluation σ Value :=
  Evaluation.divided (term.evalRuns definer)

namespace Expr

/-- The name of the variable to assign to, if the target can take a value at all. -/
def targetName (target : VarRef) : Except Failure String :=
  match target.name, target.defines with
  | some name, false => .ok name
  | _, _ => .error (Failure.because (.notAssignable target))

/-- Checks that a target takes values of the kind of a value. -/
def checkTarget (target : VarRef) (value : Value) : Except Failure Unit :=
  match target.kind, value.kind with
  | .scalar, .matrix => .error (Failure.because .matrixIntoScalar)
  | .matrix, .scalar => .error (Failure.because .scalarIntoMatrix)
  | _, _ => .ok ()

/-- Evaluates a line: checks its target, evaluates it, assigns the value to the target and stores
it as the last result. -/
def evaluate (definer : Definer σ) (expr : Expr) : Evaluation σ Outcome := do
  match expr.target with
  | none =>
      let value ← expr.eval definer
      Evaluation.write fun slots => .ok (slots.setLast value)
      pure ⟨value, none⟩
  | some target =>
      let name ← Evaluation.ofExcept (targetName target)
      let value ← expr.eval definer
      Evaluation.ofExcept (checkTarget target value)
      Evaluation.write fun slots => slots.setNamed name value
      Evaluation.write fun slots => .ok (slots.setLast value)
      pure ⟨value, some name⟩

/-- Parses and evaluates a line. -/
def evaluateLine (definer : Definer σ) (source : String) : Evaluation σ Outcome := do
  let expr ← Evaluation.ofExcept (parse source)
  expr.evaluate definer

end Expr

end MatrixCalc
