import MatrixCalc.Syntax.Basic

/-!
# Replacing variables

`Expr.substitute` puts an operand in the place of every reference in an expression, and
`Expr.replace` a group in the place of the references to one variable.
-/

namespace MatrixCalc

mutual
/-- The expression with an operand in the place of each reference. The target is kept. -/
def Expr.substitute (operand : VarRef → Operand) : Expr → Expr
  | .mk sum target => .mk (sum.substitute operand) target

@[inherit_doc Expr.substitute]
def Sum.substitute (operand : VarRef → Operand) : Sum → Sum
  | .term last => .term (last.substitute operand)
  | .join before op last => .join (before.substitute operand) op (last.substitute operand)

@[inherit_doc Expr.substitute]
def Term.substitute (operand : VarRef → Operand) : Term → Term
  | .factor last => .factor (last.substitute operand)
  | .join before op last => .join (before.substitute operand) op (last.substitute operand)

@[inherit_doc Expr.substitute]
def Factor.substitute (operand : VarRef → Operand) : Factor → Factor
  | .mk negated inner => .mk negated (inner.substitute operand)

@[inherit_doc Expr.substitute]
def Operand.substitute (operand : VarRef → Operand) : Operand → Operand
  | .number value => .number value
  | .variable ref => operand ref
  | .group expr => .group (expr.substitute operand)
  | .call function supplied => .call function (supplied.substitute operand)

@[inherit_doc Expr.substitute]
def Arguments.substitute (operand : VarRef → Operand) : Arguments → Arguments
  | .nil => .nil
  | .cons first rest => .cons (first.substitute operand) (rest.substitute operand)
end

/-- The expression with a group in the place of each reference `ref`. -/
def Expr.replace (expr : Expr) (ref : VarRef) (inner : Expr) : Expr :=
  expr.substitute fun other => if other = ref then .group inner else .variable other

mutual
/-- Putting each reference in its own place changes nothing. -/
theorem Expr.substitute_variable (expr : Expr) : expr.substitute .variable = expr := by
  obtain ⟨sum, target⟩ := expr
  rw [Expr.substitute, sum.substitute_variable]

@[inherit_doc Expr.substitute_variable]
theorem Sum.substitute_variable (sum : Sum) : sum.substitute .variable = sum := by
  cases sum with
  | term last => rw [Sum.substitute, last.substitute_variable]
  | join before op last =>
    rw [Sum.substitute, before.substitute_variable, last.substitute_variable]

@[inherit_doc Expr.substitute_variable]
theorem Term.substitute_variable (term : Term) : term.substitute .variable = term := by
  cases term with
  | factor last => rw [Term.substitute, last.substitute_variable]
  | join before op last =>
    rw [Term.substitute, before.substitute_variable, last.substitute_variable]

@[inherit_doc Expr.substitute_variable]
theorem Factor.substitute_variable (factor : Factor) : factor.substitute .variable = factor := by
  obtain ⟨negated, operand⟩ := factor
  rw [Factor.substitute, operand.substitute_variable]

@[inherit_doc Expr.substitute_variable]
theorem Operand.substitute_variable (operand : Operand) :
    operand.substitute .variable = operand := by
  cases operand with
  | number value => rfl
  | «variable» ref => rfl
  | group expr => rw [Operand.substitute, expr.substitute_variable]
  | call function supplied => rw [Operand.substitute, supplied.substitute_variable]

@[inherit_doc Expr.substitute_variable]
theorem Arguments.substitute_variable (supplied : Arguments) :
    supplied.substitute .variable = supplied := by
  cases supplied with
  | nil => rfl
  | cons first rest =>
    rw [Arguments.substitute, first.substitute_variable, rest.substitute_variable]
end

end MatrixCalc
