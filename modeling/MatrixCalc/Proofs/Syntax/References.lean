import MatrixCalc.Kind
import MatrixCalc.Proofs.Syntax.WellFormed

/-!
# The references in a tree

`Expr.refs` lists the references in an expression in the order in which they are written. In a
well-formed tree all of them are well-formed.
-/

namespace MatrixCalc

/-- The kind of value that a reference stands for. -/
def RefKind.valueKind : RefKind → Kind
  | .matrix | .defineMatrix | .defineAnonymous => .matrix
  | .scalar | .defineScalar => .scalar

mutual
/-- The references in an expression, from left to right, without the target. -/
def Expr.refs : Expr → List VarRef
  | .mk sum _ => sum.refs

@[inherit_doc Expr.refs]
def Sum.refs : Sum → List VarRef
  | .term last => last.refs
  | .join before _ last => before.refs ++ last.refs

@[inherit_doc Expr.refs]
def Term.refs : Term → List VarRef
  | .factor last => last.refs
  | .join before _ last => before.refs ++ last.refs

@[inherit_doc Expr.refs]
def Factor.refs : Factor → List VarRef
  | .mk _ operand => operand.refs

@[inherit_doc Expr.refs]
def Operand.refs : Operand → List VarRef
  | .number _ => []
  | .variable ref => [ref]
  | .group expr => expr.refs
  | .call _ supplied => supplied.refs

@[inherit_doc Expr.refs]
def Arguments.refs : Arguments → List VarRef
  | .nil => []
  | .cons first rest => first.refs ++ rest.refs
end

mutual
/-- The references in a well-formed tree are well-formed. -/
theorem Expr.wellFormed_of_mem_refs (expr : Expr) (hwf : expr.WellFormedInside) :
    ∀ ref ∈ expr.refs, ref.WellFormed := by
  obtain ⟨sum, target⟩ := expr
  exact sum.wellFormed_of_mem_refs hwf.2

@[inherit_doc Expr.wellFormed_of_mem_refs]
theorem Sum.wellFormed_of_mem_refs (sum : Sum) (hwf : sum.WellFormed) :
    ∀ ref ∈ sum.refs, ref.WellFormed := by
  cases sum with
  | term last => exact last.wellFormed_of_mem_refs hwf
  | join before op last =>
    exact List.forall_mem_append.2
      ⟨before.wellFormed_of_mem_refs hwf.1, last.wellFormed_of_mem_refs hwf.2⟩

@[inherit_doc Expr.wellFormed_of_mem_refs]
theorem Term.wellFormed_of_mem_refs (term : Term) (hwf : term.WellFormed) :
    ∀ ref ∈ term.refs, ref.WellFormed := by
  cases term with
  | factor last => exact last.wellFormed_of_mem_refs hwf
  | join before op last =>
    exact List.forall_mem_append.2
      ⟨before.wellFormed_of_mem_refs hwf.1, last.wellFormed_of_mem_refs hwf.2⟩

@[inherit_doc Expr.wellFormed_of_mem_refs]
theorem Factor.wellFormed_of_mem_refs (factor : Factor) (hwf : factor.WellFormed) :
    ∀ ref ∈ factor.refs, ref.WellFormed := by
  obtain ⟨negated, operand⟩ := factor
  exact operand.wellFormed_of_mem_refs hwf

@[inherit_doc Expr.wellFormed_of_mem_refs]
theorem Operand.wellFormed_of_mem_refs (operand : Operand) (hwf : operand.WellFormed) :
    ∀ ref ∈ operand.refs, ref.WellFormed := by
  cases operand with
  | number value => nofun
  | «variable» ref => exact List.forall_mem_singleton.2 hwf
  | group expr => exact expr.wellFormed_of_mem_refs hwf
  | call function supplied => exact supplied.wellFormed_of_mem_refs hwf.2.2

@[inherit_doc Expr.wellFormed_of_mem_refs]
theorem Arguments.wellFormed_of_mem_refs (supplied : Arguments) (hwf : supplied.WellFormed) :
    ∀ ref ∈ supplied.refs, ref.WellFormed := by
  cases supplied with
  | nil => nofun
  | cons first rest =>
    exact List.forall_mem_append.2
      ⟨first.wellFormed_of_mem_refs hwf.1, rest.wellFormed_of_mem_refs hwf.2⟩
end

end MatrixCalc
