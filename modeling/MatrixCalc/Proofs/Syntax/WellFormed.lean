import MatrixCalc.Proofs.Token.Scan
import MatrixCalc.Syntax.Text

/-!
# Well-formed expressions and their words

`Expr.WellFormed` describes the trees that a line can denote: names are letters of the right case,
numbers keep to the digit limit, calls have arguments, only the whole line has a target, and
groups and calls nest no deeper than the limit. `Expr.words` are the tokens of a tree as it is
printed, without their positions.
-/

namespace MatrixCalc

open Token (isUpper isLower isLetter)

/-! ## Well-formed trees -/

mutual
/-- The most groups and calls that stand inside one another. -/
def Expr.depth : Expr → Nat
  | .mk sum _ => sum.depth

@[inherit_doc Expr.depth]
def Sum.depth : Sum → Nat
  | .term last => last.depth
  | .join before _ last => max before.depth last.depth

@[inherit_doc Expr.depth]
def Term.depth : Term → Nat
  | .factor last => last.depth
  | .join before _ last => max before.depth last.depth

@[inherit_doc Expr.depth]
def Factor.depth : Factor → Nat
  | .mk _ operand => operand.depth

@[inherit_doc Expr.depth]
def Operand.depth : Operand → Nat
  | .number _ | .variable _ => 0
  | .group expr => expr.depth + 1
  | .call _ supplied => supplied.depth + 1

@[inherit_doc Expr.depth]
def Arguments.depth : Arguments → Nat
  | .nil => 0
  | .cons first rest => max first.depth rest.depth
end

/-- A reference is named by one letter, upper case for a matrix and lower case for a scalar, and
`$$` has no name. -/
def VarRef.WellFormed (ref : VarRef) : Prop :=
  match ref.kind with
  | .matrix | .defineMatrix =>
      ∃ char, ref.name = some (String.singleton char) ∧ isUpper char = true
  | .scalar | .defineScalar =>
      ∃ char, ref.name = some (String.singleton char) ∧ isLower char = true
  | .defineAnonymous => ref.name = none

/-- A function is named by two or more letters. -/
def FunctionName (name : String) : Prop :=
  2 ≤ name.toList.length ∧ ∀ char ∈ name.toList, isLetter char = true

mutual
/-- A well-formed expression inside a group or call: it has no target. -/
def Expr.WellFormedInside : Expr → Prop
  | .mk sum target => target = none ∧ sum.WellFormed

/-- Names, numbers and calls are such as can be written. -/
def Sum.WellFormed : Sum → Prop
  | .term last => last.WellFormed
  | .join before _ last => before.WellFormed ∧ last.WellFormed

@[inherit_doc Sum.WellFormed]
def Term.WellFormed : Term → Prop
  | .factor last => last.WellFormed
  | .join before _ last => before.WellFormed ∧ last.WellFormed

@[inherit_doc Sum.WellFormed]
def Factor.WellFormed : Factor → Prop
  | .mk _ operand => operand.WellFormed

@[inherit_doc Sum.WellFormed]
def Operand.WellFormed : Operand → Prop
  | .number value => Numeral.fits value = true
  | .variable ref => ref.WellFormed
  | .group expr => expr.WellFormedInside
  | .call function supplied =>
      FunctionName function ∧ supplied ≠ .nil ∧ supplied.WellFormed

@[inherit_doc Sum.WellFormed]
def Arguments.WellFormed : Arguments → Prop
  | .nil => True
  | .cons first rest => first.WellFormedInside ∧ rest.WellFormed
end

/-- A well-formed line: a well-formed sum of limited depth, and a target that is a variable named
without a dollar sign, if there is one. -/
structure Expr.WellFormed (expr : Expr) : Prop where
  sum : expr.sum.WellFormed
  depth : expr.depth ≤ nestingLimit
  target : ∀ ref ∈ expr.target, ref.defines = false ∧ ref.WellFormed

/-! ## The words of a tree -/

/-- The kind of token that stands for an operator between terms. -/
def AddOp.kind : AddOp → TokenKind
  | .add => .plus
  | .sub => .minus

/-- An operator between terms as a word. -/
def AddOp.word (op : AddOp) : Word :=
  ⟨op.kind, op.sign⟩

/-- The kind of token that stands for an operator between factors. -/
def MulOp.kind : MulOp → TokenKind
  | .mul => .times
  | .div => .divide

/-- An operator between factors as a word. -/
def MulOp.word (op : MulOp) : Word :=
  ⟨op.kind, op.sign⟩

/-- The kind of token that stands for a reference. -/
def RefKind.tokenKind : RefKind → TokenKind
  | .matrix => .matrix
  | .scalar => .scalar
  | .defineMatrix => .defineMatrix
  | .defineScalar => .defineScalar
  | .defineAnonymous => .defineAnonymous

/-- A reference as a word. -/
def VarRef.word (ref : VarRef) : Word :=
  ⟨ref.kind.tokenKind, ref.text⟩

namespace Word

/-- The signs of the language as words. -/
def minus : Word := ⟨.minus, "-"⟩

@[inherit_doc minus]
def arrow : Word := ⟨.arrow, "->"⟩

@[inherit_doc minus]
def comma : Word := ⟨.comma, ","⟩

@[inherit_doc minus]
def opening : Word := ⟨.leftParen, "("⟩

@[inherit_doc minus]
def closing : Word := ⟨.rightParen, ")"⟩

/-- Signs and operators: words that are the only ones of their kind. -/
inductive IsSign : Word → Prop
  | addOp (op : AddOp) : IsSign op.word
  | mulOp (op : MulOp) : IsSign op.word
  | minus : IsSign .minus
  | arrow : IsSign .arrow
  | comma : IsSign .comma
  | opening : IsSign .opening
  | closing : IsSign .closing

namespace IsSign

variable {word : Word}

/-- A sign is no number. -/
theorem kind_ne_number (h : word.IsSign) : word.kind ≠ .number := by
  cases h with
  | addOp op => cases op <;> decide
  | mulOp op => cases op <;> decide
  | _ => decide

/-- A sign is not the end of the input. -/
theorem kind_ne_endOfInput (h : word.IsSign) : word.kind ≠ .endOfInput := by
  cases h with
  | addOp op => cases op <;> decide
  | mulOp op => cases op <;> decide
  | _ => decide

/-- A sign can be written in one way. -/
theorem admits_iff (h : word.IsSign) {chars : List Char} :
    word.kind.Admits chars ↔ chars = word.text.toList := by
  cases h with
  | addOp op => cases op <;> exact Iff.rfl
  | mulOp op => cases op <;> exact Iff.rfl
  | _ => exact Iff.rfl

end IsSign

end Word

mutual
/-- The words of an expression, from left to right. -/
def Expr.words : Expr → List Word
  | .mk sum none => sum.words
  | .mk sum (some target) => sum.words ++ [.arrow, target.word]

@[inherit_doc Expr.words]
def Sum.words : Sum → List Word
  | .term last => last.words
  | .join before op last => before.words ++ op.word :: last.words

@[inherit_doc Expr.words]
def Term.words : Term → List Word
  | .factor last => last.words
  | .join before op last => before.words ++ op.word :: last.words

@[inherit_doc Expr.words]
def Factor.words : Factor → List Word
  | .mk true operand => .minus :: operand.words
  | .mk false operand => operand.words

@[inherit_doc Expr.words]
def Operand.words : Operand → List Word
  | .number value => [⟨.number, value.repr⟩]
  | .variable ref => [ref.word]
  | .group expr => .opening :: (expr.words ++ [.closing])
  | .call function .nil => [⟨.function, function⟩, .opening, .closing]
  | .call function (.cons first rest) =>
      ⟨.function, function⟩ :: .opening :: (first.words ++ (rest.tailWords ++ [.closing]))

/-- The words of arguments, each behind a comma. -/
def Arguments.tailWords : Arguments → List Word
  | .nil => []
  | .cons first rest => .comma :: (first.words ++ rest.tailWords)
end

end MatrixCalc
