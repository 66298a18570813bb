import MatrixCalc.Builtin
import MatrixCalc.Proofs.Syntax.References

/-!
# The kinds of trees

`Expr.kind?` is the kind of value that an expression can have, found without evaluating it. An
expression without a kind mixes scalars and matrices where that is not allowed, or calls a function
that is not there or does not take such arguments. `Term.kind?_eq_some_iff` says what this means
for the runs of a term.
-/

namespace MatrixCalc

namespace Kind

/-- The kind of a product: a matrix if one of the factors is one. -/
def times : Kind → Kind → Kind
  | .scalar, .scalar => .scalar
  | _, _ => .matrix

/-- The kind of a quotient: that of the dividend, if the divisor is a scalar. -/
def dividedBy (dividend divisor : Kind) : Option Kind :=
  if divisor = .scalar then some dividend else none

end Kind

/-- Whether a term divides, so that its last factor belongs to a later run. -/
def Term.divided : Term → Bool
  | .factor _ => false
  | .join before op _ => decide (op = .div) || before.divided

mutual
/-- The kind of an expression, if it has one. The target is not looked at. -/
def Expr.kind? : Expr → Option Kind
  | .mk sum _ => sum.kind?

/-- The kind of a sum: all its terms are of this kind. -/
def Sum.kind? : Sum → Option Kind
  | .term last => last.kind?
  | .join before _ last => do
      let kind ← before.kind?
      let next ← last.kind?
      if kind = next then some kind else none

/-- The kind of a term: that of the product of its first run, if the factors of the later runs are
scalars. -/
def Term.kind? : Term → Option Kind
  | .factor last => last.kind?
  | .join before op last => do
      let kind ← before.kind?
      let next ← last.kind?
      if op = .div ∨ before.divided = true then kind.dividedBy next else some (kind.times next)

/-- The kind of a factor is that of its operand. -/
def Factor.kind? : Factor → Option Kind
  | .mk _ operand => operand.kind?

/-- The kind of an operand. A call is a matrix if the function takes arguments of these kinds. -/
def Operand.kind? : Operand → Option Kind
  | .number _ => some .scalar
  | .variable ref => some ref.kind.valueKind
  | .group expr => expr.kind?
  | .call function supplied => do
      let builtin ← (Builtin.find function).toOption
      let kinds ← supplied.kinds?
      if kinds = builtin.signature then some .matrix else none

/-- The kinds of arguments, if each of them has one. -/
def Arguments.kinds? : Arguments → Option (List Kind)
  | .nil => some []
  | .cons first rest => do
      let kind ← first.kind?
      let kinds ← rest.kinds?
      some (kind :: kinds)
end

/-- The kind of a line: that of its sum, which is also the kind of its target if it has one. -/
def Expr.lineKind? : Expr → Option Kind
  | .mk sum none => sum.kind?
  | .mk sum (some target) => do
      let kind ← sum.kind?
      if kind = target.kind.valueKind then some kind else none

/-! ## The runs of a term -/

namespace Term

/-- The factors of the first run of a term: those before the first division. -/
def firstRun : Term → List Factor
  | .factor last => [last]
  | .join before op last =>
      if op = .div ∨ before.divided = true then before.firstRun else before.firstRun ++ [last]

/-- The factors of the later runs of a term: those behind the first division. -/
def laterRuns : Term → List Factor
  | .factor _ => []
  | .join before op last =>
      if op = .div ∨ before.divided = true then before.laterRuns ++ [last] else before.laterRuns

/-- From the first division on, all factors are scalars. -/
theorem kind?_join_of_later {before : Term} {op : MulOp} {last : Factor} {kind : Kind}
    (h : op = .div ∨ before.divided = true) :
    (join before op last).kind? = some kind ↔
      before.kind? = some kind ∧ last.kind? = some .scalar := by
  rw [kind?]
  cases before.kind? with
  | none => simp
  | some first =>
    rcases last.kind? with _ | next
    · simp
    · cases next <;> simp [h, Kind.dividedBy]

/-- Before the first division, the kind is that of a product. -/
theorem kind?_join_of_first {before : Term} {op : MulOp} {last : Factor} {kind : Kind}
    (h : ¬ (op = .div ∨ before.divided = true)) :
    (join before op last).kind? = some kind ↔
      ∃ first next, before.kind? = some first ∧ last.kind? = some next ∧
        kind = first.times next := by
  rw [kind?]
  cases before.kind? with
  | none => simp
  | some first =>
    cases last.kind? with
    | none => simp
    | some next =>
      simp only [Option.bind_eq_bind, Option.bind_some, h, if_false, Option.some.injEq,
        exists_and_left, exists_eq_left']
      exact eq_comm

/-- A term has a kind if all factors of its first run have one and those of the later runs are
scalars; it is a matrix if a factor of the first run is one. -/
theorem kind?_eq_some_iff : ∀ {term : Term} {kind : Kind},
    term.kind? = some kind ↔
      (∀ factor ∈ term.laterRuns, factor.kind? = some .scalar) ∧
        (∀ factor ∈ term.firstRun, factor.kind? ≠ none) ∧
        (kind = .matrix ↔ ∃ factor ∈ term.firstRun, factor.kind? = some .matrix)
  | .factor last, kind => by
      simp only [kind?, firstRun, laterRuns, List.not_mem_nil, false_implies, implies_true,
        true_and, List.mem_singleton, forall_eq, exists_eq_left]
      cases last.kind? with
      | none => simp
      | some next => cases next <;> cases kind <;> simp
  | .join before op last, kind => by
      by_cases hlater : op = .div ∨ before.divided = true
      · rw [kind?_join_of_later hlater, kind?_eq_some_iff, firstRun, laterRuns, if_pos hlater,
          if_pos hlater, List.forall_mem_append, List.forall_mem_singleton, and_right_comm]
      · rw [kind?_join_of_first hlater, firstRun, laterRuns, if_neg hlater, if_neg hlater,
          List.forall_mem_append, List.forall_mem_singleton]
        constructor
        · rintro ⟨first, next, hfirst, hnext, rfl⟩
          obtain ⟨hscalars, hkinds, hmatrix⟩ := kind?_eq_some_iff.1 hfirst
          refine ⟨hscalars, ⟨hkinds, by rw [hnext]; exact nofun⟩, ?_⟩
          simp only [List.mem_append, List.mem_singleton, or_and_right, exists_or, exists_eq_left,
            ← hmatrix, hnext]
          cases first <;> cases next <;> simp [Kind.times]
        · rintro ⟨hscalars, ⟨hkinds, hlast⟩, hmatrix⟩
          obtain ⟨next, hnext⟩ := Option.ne_none_iff_exists'.1 hlast
          simp only [List.mem_append, List.mem_singleton, or_and_right, exists_or, exists_eq_left,
            hnext] at hmatrix
          by_cases hfirst : ∃ factor ∈ before.firstRun, factor.kind? = some .matrix
          · refine ⟨.matrix, next, kind?_eq_some_iff.2 ⟨hscalars, hkinds, by simpa⟩, hnext, ?_⟩
            exact hmatrix.2 (.inl hfirst)
          · refine ⟨.scalar, next, kind?_eq_some_iff.2 ⟨hscalars, hkinds, by simpa using hfirst⟩,
              hnext, ?_⟩
            simp only [hfirst, false_or] at hmatrix
            cases kind <;> cases next <;> simp_all [Kind.times]

end Term

end MatrixCalc
