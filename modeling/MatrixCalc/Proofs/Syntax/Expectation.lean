import MatrixCalc.Proofs.Syntax.WellFormed

/-!
# What a line may go on with

Behind the front of a line, an `Expectation` says what has to come next and which groups and calls
are open. Only the kinds of the tokens matter: `Expectation.next` says what is expected behind one
more token, `Expectation.after` behind several. Whatever is expected, there is a way to the end
of the line (`Expectation.after_completion`), and the end of the input stands behind an operand
that nothing encloses or behind a target (`Expectation.after_eq_nothing`).
-/

namespace MatrixCalc

/-- What a parenthesis opens: a group, or the arguments of a call. -/
inductive Opened where
  | group
  | call
  deriving DecidableEq, Repr

/-- What is expected next in a line. The list tells what is open, from the inside out. -/
inductive Expectation where
  | factor (opened : List Opened)
  /-- An operand, behind a minus sign. -/
  | operand (opened : List Opened)
  /-- The opening parenthesis of a call, behind the name of the function. -/
  | opening (opened : List Opened)
  /-- An operator or the end of what is open, behind an operand. -/
  | operator (opened : List Opened)
  /-- The variable behind an arrow. -/
  | target
  /-- The end of the input, behind the target. -/
  | finish
  /-- Nothing, behind the end of the input. -/
  | nothing
  deriving DecidableEq, Repr

namespace Expectation

/-- What is expected behind the first token of an operand. -/
def insideOperand (opened : List Opened) : TokenKind → Option Expectation
  | .number | .matrix | .scalar | .defineMatrix | .defineScalar | .defineAnonymous =>
      some (.operator opened)
  | .leftParen => some (.factor (.group :: opened))
  | .function => some (.opening opened)
  | _ => none

/-- What is expected behind the token that follows an operand. -/
def behindOperand : List Opened → TokenKind → Option Expectation
  | opened, .plus | opened, .minus | opened, .times | opened, .divide => some (.factor opened)
  | _ :: outer, .rightParen => some (.operator outer)
  | .call :: outer, .comma => some (.factor (.call :: outer))
  | [], .arrow => some .target
  | [], .endOfInput => some .nothing
  | _, _ => none

/-- What is expected behind one more token, if a token of this kind may come next. -/
def next : Expectation → TokenKind → Option Expectation
  | .factor opened, kind =>
      if kind = .minus then some (.operand opened) else insideOperand opened kind
  | .operand opened, kind => insideOperand opened kind
  | .opening opened, kind => if kind = .leftParen then some (.factor (.call :: opened)) else none
  | .operator opened, kind => behindOperand opened kind
  | .target, kind => if kind = .matrix ∨ kind = .scalar then some .finish else none
  | .finish, kind => if kind = .endOfInput then some .nothing else none
  | .nothing, _ => none

/-- What is expected behind several tokens. -/
def after (start : Expectation) (kinds : List TokenKind) : Option Expectation :=
  kinds.foldlM next start

/-- The groups and calls that are open. -/
def opened : Expectation → List Opened
  | .factor opened | .operand opened | .opening opened | .operator opened => opened
  | .target | .finish | .nothing => []

variable {start middle last : Expectation} {kind : TokenKind} {kinds more : List TokenKind}
  {opened : List Opened}

/-- No kind leads nowhere else. -/
@[simp] theorem after_nil : start.after [] = some start := rfl

/-- The first kind leads on to the others. -/
@[simp] theorem after_cons : start.after (kind :: kinds) = (start.next kind).bind (·.after kinds) :=
  List.foldlM_cons

/-- Kinds lead on from where the kinds before them have led. -/
theorem after_append : start.after (kinds ++ more) = (start.after kinds).bind (·.after more) :=
  List.foldlM_append

@[inherit_doc Expectation.after_append]
theorem after_append_of (h : start.after kinds = some middle) :
    start.after (kinds ++ more) = middle.after more := by
  rw [after_append, h, Option.bind_some]

/-- What can be read to some point can be read to any point before. -/
theorem exists_after_of_prefix (h : start.after more = some last) (hfront : kinds <+: more) :
    ∃ middle, start.after kinds = some middle := by
  obtain ⟨behind, rfl⟩ := hfront
  rw [after_append] at h
  obtain ⟨middle, hmiddle, -⟩ := Option.bind_eq_some_iff.1 h
  exact ⟨middle, hmiddle⟩

/-! ## Operators and operands -/

/-- A sign of products is followed by a factor. -/
theorem next_operator_mulOp {op : MulOp} :
    next (.operator opened) op.kind = some (.factor opened) := by
  cases op <;> cases opened <;> rfl

/-- A sign of sums is followed by a factor. -/
theorem next_operator_addOp {op : AddOp} :
    next (.operator opened) op.kind = some (.factor opened) := by
  cases op <;> cases opened <;> rfl

/-- A variable is followed by an operator, or by what ends the expression. -/
theorem next_operand_refKind {ref : RefKind} :
    next (.operand opened) ref.tokenKind = some (.operator opened) := by
  cases ref <;> rfl

/-- Where a factor is expected, an operand may stand. -/
theorem next_factor_of_operand (h : next (.operand opened) kind = some middle) :
    next (.factor opened) kind = some middle := by
  have hne : kind ≠ .minus := by
    rintro rfl
    cases h
  rw [next, if_neg hne]
  exact h

/-- Where a factor is expected, an operand is. -/
theorem after_factor_of_operand (h : after (.operand opened) kinds = some last) (hne : kinds ≠ []) :
    after (.factor opened) kinds = some last := by
  cases kinds with
  | nil => exact absurd rfl hne
  | cons kind kinds =>
    obtain ⟨middle, hmiddle, hlast⟩ := Option.bind_eq_some_iff.1 (after_cons ▸ h)
    rw [after_cons, next_factor_of_operand hmiddle, Option.bind_some, hlast]

/-! ## Open groups and calls -/

/-- An opening parenthesis opens a group or call, and a closing one closes it. -/
theorem next_opened (h : start.next kind = some middle) :
    middle.opened.length + [kind].count .rightParen =
      start.opened.length + [kind].count .leftParen := by
  cases start with
  | factor opened =>
    rw [next] at h
    split at h
    · next hminus => cases h; simp [hminus, Expectation.opened]
    · cases kind <;> cases h <;> simp [Expectation.opened]
  | operand opened => cases kind <;> cases h <;> simp [Expectation.opened]
  | opening opened =>
    cases kind <;> cases h
    simp [Expectation.opened]
  | operator opened =>
    cases kind <;> rcases opened with _ | ⟨_ | _, outer⟩ <;> cases h <;> simp [Expectation.opened]
  | target => cases kind <;> cases h <;> simp [Expectation.opened]
  | finish =>
    cases kind <;> cases h
    simp [Expectation.opened]
  | nothing => cases h

/-- The open groups and calls are those whose opening parenthesis has no closing one. -/
theorem after_opened (h : start.after kinds = some last) :
    last.opened.length + kinds.count .rightParen =
      start.opened.length + kinds.count .leftParen := by
  induction kinds generalizing start with
  | nil =>
    cases h
    rfl
  | cons kind kinds ih =>
    obtain ⟨middle, hmiddle, hlast⟩ := Option.bind_eq_some_iff.1 (after_cons ▸ h)
    have hfirst := next_opened hmiddle
    have hrest := ih hlast
    rw [← List.singleton_append, List.count_append, List.count_append]
    omega

/-! ## The way to the end -/

/-- The kinds that close what is open and end the line. -/
def closing (opened : List Opened) : List TokenKind :=
  List.replicate opened.length .rightParen ++ [.endOfInput]

/-- Kinds that lead to the end of a line. -/
def completion : Expectation → List TokenKind
  | .factor opened | .operand opened => .number :: closing opened
  | .opening opened => .leftParen :: .number :: .rightParen :: closing opened
  | .operator opened => closing opened
  | .target => [.matrix, .endOfInput]
  | .finish => [.endOfInput]
  | .nothing => []

/-- Closing all that is open, the last of it first, leads to the end. -/
theorem after_closing (opened : List Opened) :
    after (.operator opened) (closing opened) = some .nothing := by
  induction opened with
  | nil => rfl
  | cons first outer ih => cases first <;> exact ih

/-- Whatever is expected, there is a way to the end. -/
theorem after_completion (start : Expectation) : start.after start.completion = some .nothing := by
  cases start with
  | factor opened | operand opened | opening opened | operator opened => exact after_closing opened
  | target | finish | nothing => rfl

/-- Only the end of the input leads to where nothing is expected. -/
theorem next_eq_nothing (h : start.next kind = some .nothing) :
    kind = .endOfInput ∧ (start = .operator [] ∨ start = .finish) := by
  cases start with
  | operator opened =>
    cases kind <;> rcases opened with _ | ⟨_ | _, outer⟩ <;> cases h
    simp
  | factor opened | operand opened | opening opened | target | finish =>
    cases kind <;> cases h <;> simp
  | nothing => cases h

/-- A line that is read to the end of the input ends there, behind an operand that nothing encloses
or behind a target. -/
theorem after_eq_nothing (h : start.after kinds = some .nothing) (hstart : start ≠ .nothing) :
    ∃ body last, kinds = body ++ [.endOfInput] ∧ start.after body = some last ∧
      (last = .operator [] ∨ last = .finish) := by
  rcases List.eq_nil_or_concat kinds with rfl | ⟨body, kind, rfl⟩
  · cases h
    exact absurd rfl hstart
  · rw [List.concat_eq_append, after_append] at h
    obtain ⟨last, hlast, hend⟩ := Option.bind_eq_some_iff.1 h
    rw [after_cons] at hend
    obtain ⟨_, hnext, hnothing⟩ := Option.bind_eq_some_iff.1 hend
    cases hnothing
    obtain ⟨rfl, hcases⟩ := next_eq_nothing hnext
    exact ⟨body, last, List.concat_eq_append, hlast, hcases⟩

end Expectation

end MatrixCalc
