/-!
# Expression trees

An expression is a sum of terms, a term is a product of factors, and a factor is an operand with
or without a minus sign. Sums and products lean to the left: `a - b + c` is the sum of `a - b`
and `c`. An expression may name the variable that takes its value.
-/

namespace MatrixCalc

/-- The operators that join terms. -/
inductive AddOp where
  | add
  | sub
  deriving DecidableEq, Repr

/-- The sign of an additive operator. -/
def AddOp.sign : AddOp → String
  | .add => "+"
  | .sub => "-"

/-- The operators that join factors. -/
inductive MulOp where
  | mul
  | div
  deriving DecidableEq, Repr

/-- The sign of a multiplicative operator. -/
def MulOp.sign : MulOp → String
  | .mul => "*"
  | .div => "/"

/-- The five ways in which a factor refers to a variable. -/
inductive RefKind where
  | matrix
  | scalar
  | defineMatrix
  | defineScalar
  | defineAnonymous
  deriving DecidableEq, Repr

/-- A reference to a variable. Trees that come from text have a name in every reference but `$$`;
trees that are given may lack it. -/
structure VarRef where
  kind : RefKind
  name : Option String
  deriving DecidableEq, Repr

namespace VarRef

/-- Whether evaluating the reference asks for a value first. -/
def defines (ref : VarRef) : Bool :=
  match ref.kind with
  | .matrix | .scalar => false
  | .defineMatrix | .defineScalar | .defineAnonymous => true

/-- The name of the variable as it is shown. -/
def shownName (ref : VarRef) : String :=
  ref.name.getD "None"

/-- The reference as it is written in an expression. -/
def text (ref : VarRef) : String :=
  match ref.kind with
  | .matrix | .scalar => ref.shownName
  | .defineMatrix | .defineScalar => "$" ++ ref.shownName
  | .defineAnonymous => "$$"

end VarRef

mutual
/-- An expression: a sum, and the variable named by `->` if there is one. -/
inductive Expr where
  | mk (sum : Sum) (target : Option VarRef)

/-- A sum of one or more terms. -/
inductive Sum where
  | term (last : Term)
  | join (before : Sum) (op : AddOp) (last : Term)

/-- A term: a product of one or more factors. -/
inductive Term where
  | factor (last : Factor)
  | join (before : Term) (op : MulOp) (last : Factor)

/-- A factor: an operand, and whether a minus sign stands before it. -/
inductive Factor where
  | mk (negated : Bool) (operand : Operand)

/-- An operand: a number, a variable, an expression in parentheses or a function call. -/
inductive Operand where
  | number (value : Nat)
  | variable (ref : VarRef)
  | group (expr : Expr)
  | call (function : String) (arguments : Arguments)

/-- The arguments of a call. -/
inductive Arguments where
  | nil
  | cons (first : Expr) (rest : Arguments)
end

deriving instance DecidableEq for Expr, Sum, Term, Factor, Operand, Arguments

namespace Expr

/-- The sum that an expression evaluates. -/
def sum : Expr → Sum
  | .mk sum _ => sum

/-- The variable named by `->`. -/
def target : Expr → Option VarRef
  | .mk _ target => target

end Expr

/-- The first term of a sum, and each later one with the operator before it, in front of
`more`. -/
def Sum.toListOnto : Sum → List (AddOp × Term) → Term × List (AddOp × Term)
  | .term last, more => (last, more)
  | .join before op last, more => before.toListOnto ((op, last) :: more)

/-- The first term of a sum, and each later one with the operator before it. -/
def Sum.toList (sum : Sum) : Term × List (AddOp × Term) :=
  sum.toListOnto []

/-- The sum of a first term and later ones, each with the operator before it. -/
def Sum.ofList (first : Term) (rest : List (AddOp × Term)) : Sum :=
  rest.foldl (fun sum next => .join sum next.1 next.2) (.term first)

theorem Sum.ofList_toListOnto : ∀ (sum : Sum) (more : List (AddOp × Term)),
    Sum.ofList (sum.toListOnto more).1 (sum.toListOnto more).2 =
      more.foldl (fun sum next => .join sum next.1 next.2) sum
  | .term _, _ => rfl
  | .join before op last, more => by simp [toListOnto, ofList_toListOnto before]

/-- A sum is made of its terms. -/
theorem Sum.ofList_toList (sum : Sum) : Sum.ofList sum.toList.1 sum.toList.2 = sum :=
  Sum.ofList_toListOnto sum []

/-- The terms of a sum, from left to right. -/
def Sum.terms (sum : Sum) : List Term :=
  sum.toList.1 :: sum.toList.2.map Prod.snd

/-- The first factor of a term, and each later one with the operator before it, in front of
`more`. -/
def Term.toListOnto : Term → List (MulOp × Factor) → Factor × List (MulOp × Factor)
  | .factor last, more => (last, more)
  | .join before op last, more => before.toListOnto ((op, last) :: more)

/-- The first factor of a term, and each later one with the operator before it. -/
def Term.toList (term : Term) : Factor × List (MulOp × Factor) :=
  term.toListOnto []

/-- The term of a first factor and later ones, each with the operator before it. -/
def Term.ofList (first : Factor) (rest : List (MulOp × Factor)) : Term :=
  rest.foldl (fun term next => .join term next.1 next.2) (.factor first)

theorem Term.ofList_toListOnto : ∀ (term : Term) (more : List (MulOp × Factor)),
    Term.ofList (term.toListOnto more).1 (term.toListOnto more).2 =
      more.foldl (fun term next => .join term next.1 next.2) term
  | .factor _, _ => rfl
  | .join before op last, more => by simp [toListOnto, ofList_toListOnto before]

/-- A term is made of its factors. -/
theorem Term.ofList_toList (term : Term) : Term.ofList term.toList.1 term.toList.2 = term :=
  Term.ofList_toListOnto term []

/-- The factors of a term, from left to right. -/
def Term.factors (term : Term) : List Factor :=
  term.toList.1 :: term.toList.2.map Prod.snd

namespace Arguments

/-- The arguments as a list. -/
def toList : Arguments → List Expr
  | .nil => []
  | .cons first rest => first :: rest.toList

/-- A list of expressions as arguments. -/
def ofList : List Expr → Arguments
  | [] => .nil
  | first :: rest => .cons first (ofList rest)

@[simp] theorem toList_ofList (exprs : List Expr) : (ofList exprs).toList = exprs := by
  induction exprs with
  | nil => rfl
  | cons first rest ih => simp [ofList, toList, ih]

end Arguments

end MatrixCalc
