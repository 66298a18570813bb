import MatrixCalc.Proofs.Evaluation.Requests
import MatrixCalc.Proofs.Syntax.Refusal

/-!
# How a line may fail

`Expr.evaluateLine_failure`: a line that fails is reported in one of a few classes, or meets the
digit limit. A division by zero is reported only where a scalar that is zero divides, and a
cancelled request only if there was one. The digit limit is met by a number in the line, or else
by the report of a product of matrices whose sizes are too long to be written.

`Expr.Performs` lists the operations that evaluating a tree carries out, up to a failure; an
evaluation fails only as one of them does (`FailsOnlyBy`). Of the functions, those that reduce
rows divide as well, but only by pivots, which are not zero (`Grid.rrefChecked_eq`).
-/

namespace MatrixCalc

variable {σ α β : Type}

/-! ## What an evaluation performs -/

/-- The operations that an evaluation carries out, depending on the state in which it starts. -/
abbrev Deeds (σ : Type) := Progress σ → Operation → Prop

namespace Deeds

/-- No operation. -/
def none : Deeds σ :=
  fun _ _ => False

/-- Operations that do not depend on the state. -/
def fixed (deeds : Operation → Prop) : Deeds σ :=
  fun _ => deeds

/-- The operations of an evaluation, and those of what follows if it has a value. -/
def andThen (first : Evaluation σ α) (deeds : Deeds σ) (next : α → Deeds σ) : Deeds σ :=
  fun before operation => deeds before operation ∨
    ∃ value after, first before = .ok value after ∧ next value after operation

end Deeds

/-- The operations of a term: those of its runs, and the divisions of these. -/
def Deeds.divided (runs : Evaluation σ Runs) (deeds : Deeds σ) : Deeds σ :=
  .andThen runs deeds fun runs => .fixed (Runs.DividesBy runs.current runs.closed)

mutual
/-- `expr.Performs definer before operation` says that evaluating the tree from this state comes
to this operation, whether or not it succeeds. -/
def Expr.Performs (definer : Definer σ) : Expr → Deeds σ
  | .mk sum _ => sum.Performs definer

@[inherit_doc Expr.Performs]
def Sum.Performs (definer : Definer σ) : Sum → Deeds σ
  | .term last => .divided (last.evalRuns definer) (last.Performs definer)
  | .join before op last =>
      .andThen (before.eval definer) (before.Performs definer) fun left =>
        .andThen (last.eval definer) (.divided (last.evalRuns definer) (last.Performs definer))
          fun right => .fixed (· = .combine op left right)

@[inherit_doc Expr.Performs]
def Term.Performs (definer : Definer σ) : Term → Deeds σ
  | .factor last => last.Performs definer
  | .join before op last =>
      .andThen (before.evalRuns definer) (before.Performs definer) fun runs =>
        .andThen (last.eval definer) (last.Performs definer) fun value =>
          .fixed (runs.ExtendsBy op value)

@[inherit_doc Expr.Performs]
def Factor.Performs (definer : Definer σ) : Factor → Deeds σ
  | .mk _ operand => operand.Performs definer

@[inherit_doc Expr.Performs]
def Operand.Performs (definer : Definer σ) : Operand → Deeds σ
  | .number _ | .variable _ => .none
  | .group expr => expr.Performs definer
  | .call function supplied =>
      .andThen (Evaluation.ofExcept (Builtin.find function)) (.fixed (· = .find function))
        fun builtin => .andThen (supplied.eval definer) (supplied.Performs definer)
          fun values => .fixed (· = .call builtin values)

@[inherit_doc Expr.Performs]
def Arguments.Performs (definer : Definer σ) : Arguments → Deeds σ
  | .nil => .none
  | .cons first rest =>
      .andThen (first.eval definer) (first.Performs definer) fun _ => rest.Performs definer
end

/-- An evaluation fails only because a request is cancelled or as one of its operations fails. -/
def FailsOnlyBy (deeds : Deeds σ) (evaluation : Evaluation σ α) : Prop :=
  ∀ before, match evaluation before with
    | .ok _ _ => True
    | .error failure _ => failure = Failure.because .cancelled ∨
        ∃ operation, deeds before operation ∧ operation.Fails failure

namespace FailsOnlyBy

/-- What never fails fails by nothing. -/
theorem ok {deeds : Deeds σ} {evaluation : Evaluation σ α}
    (h : ∀ before, ∃ value after, evaluation before = .ok value after) :
    FailsOnlyBy deeds evaluation := by
  intro before
  obtain ⟨value, after, hvalue⟩ := h before
  rw [hvalue]
  trivial

/-- Returning a value fails by nothing. -/
theorem pure (deeds : Deeds σ) (value : α) :
    FailsOnlyBy deeds (Pure.pure value : Evaluation σ α) :=
  ok fun before => ⟨value, before, rfl⟩

/-- A result that does not depend on the state fails as it does in itself. -/
theorem ofExcept {deeds : Operation → Prop} {result : Except Failure α} (h : FailsBy deeds result) :
    FailsOnlyBy (.fixed deeds) (Evaluation.ofExcept result : Evaluation σ α) := by
  intro before
  rw [Evaluation.ofExcept_apply]
  cases result with
  | ok value => trivial
  | error failure => exact .inr h

/-- Two evaluations in a row fail by what the first performs, or by what the second performs after
it. -/
theorem bind {deeds : Deeds σ} {first : Evaluation σ α} {later : α → Deeds σ}
    {next : α → Evaluation σ β} (h : FailsOnlyBy deeds first)
    (hnext : ∀ value, FailsOnlyBy (later value) (next value)) :
    FailsOnlyBy (.andThen first deeds later) (first >>= next) := by
  intro before
  have hfirst := h before
  rw [Evaluation.bind_apply]
  cases hresult : first before with
  | error failure middle =>
    rw [hresult] at hfirst
    exact hfirst.imp_right fun ⟨operation, hdone, hfails⟩ => ⟨operation, .inl hdone, hfails⟩
  | ok value middle =>
    have hsecond := hnext value middle
    dsimp only
    cases hresult' : next value middle with
    | ok value' after => trivial
    | error failure after =>
      rw [hresult'] at hsecond
      exact hsecond.imp_right fun ⟨operation, hdone, hfails⟩ =>
        ⟨operation, .inr ⟨value, middle, hresult, hdone⟩, hfails⟩

/-- Mapping the value adds no way to fail. -/
theorem andThen_pure {deeds : Deeds σ} {first : Evaluation σ α} (h : FailsOnlyBy deeds first)
    (f : α → β) : FailsOnlyBy deeds (first >>= fun value => Pure.pure (f value)) := by
  intro before
  have hfirst := h before
  rw [Evaluation.bind_apply]
  cases hresult : first before with
  | ok value after => trivial
  | error failure after =>
    rw [hresult] at hfirst
    exact hfirst

/-- A term fails as its runs do, or by a division between them. -/
theorem divided {deeds : Deeds σ} {runs : Evaluation σ Runs} (h : FailsOnlyBy deeds runs) :
    FailsOnlyBy (.divided runs deeds) (Evaluation.divided runs) :=
  h.bind fun runs => .ofExcept (Runs.divideAll_failsBy runs.closed runs.current)

end FailsOnlyBy

/-- A well-formed reference fails only if it is a definition and the request is cancelled. -/
theorem VarRef.WellFormed.eval_failsOnlyBy {ref : VarRef} (hwf : ref.WellFormed)
    (definer : Definer σ) : FailsOnlyBy .none (ref.eval definer) := by
  cases hdefines : ref.defines with
  | false =>
    obtain ⟨slot, rfl⟩ := hwf.exists_ref hdefines
    exact .ok fun before => ⟨_, before, slot.eval_ref definer before⟩
  | true =>
    intro before
    have hasks := hwf.eval_asks hdefines definer before
    generalize ref.eval definer before = result at hasks ⊢
    cases hasks with
    | answered => trivial
    | cancelled => exact .inl rfl

mutual
/-- Evaluating a well-formed tree fails by nothing but the operations that it comes to. -/
theorem Expr.eval_failsOnlyBy (definer : Definer σ) (expr : Expr) (hwf : expr.WellFormedInside) :
    FailsOnlyBy (expr.Performs definer) (expr.eval definer) := by
  obtain ⟨sum, target⟩ := expr
  exact sum.eval_failsOnlyBy definer hwf.2

@[inherit_doc Expr.eval_failsOnlyBy]
theorem Sum.eval_failsOnlyBy (definer : Definer σ) (sum : Sum) (hwf : sum.WellFormed) :
    FailsOnlyBy (sum.Performs definer) (sum.eval definer) := by
  cases sum with
  | term last => exact (last.evalRuns_failsOnlyBy definer hwf).divided
  | join before op last =>
    refine (before.eval_failsOnlyBy definer hwf.1).bind fun left => ?_
    exact (last.evalRuns_failsOnlyBy definer hwf.2).divided.bind fun right =>
      .ofExcept (left.combine_failsBy right op)

@[inherit_doc Expr.eval_failsOnlyBy]
theorem Term.evalRuns_failsOnlyBy (definer : Definer σ) (term : Term) (hwf : term.WellFormed) :
    FailsOnlyBy (term.Performs definer) (term.evalRuns definer) := by
  cases term with
  | factor last => exact (last.eval_failsOnlyBy definer hwf).andThen_pure _
  | join before op last =>
    refine (before.evalRuns_failsOnlyBy definer hwf.1).bind fun runs => ?_
    exact (last.eval_failsOnlyBy definer hwf.2).bind fun value =>
      .ofExcept (runs.extend_failsBy op value)

@[inherit_doc Expr.eval_failsOnlyBy]
theorem Factor.eval_failsOnlyBy (definer : Definer σ) (factor : Factor) (hwf : factor.WellFormed) :
    FailsOnlyBy (factor.Performs definer) (factor.eval definer) := by
  obtain ⟨negated, operand⟩ := factor
  exact (operand.eval_failsOnlyBy definer hwf).andThen_pure _

@[inherit_doc Expr.eval_failsOnlyBy]
theorem Operand.eval_failsOnlyBy (definer : Definer σ) (operand : Operand)
    (hwf : operand.WellFormed) : FailsOnlyBy (operand.Performs definer) (operand.eval definer) := by
  cases operand with
  | number value => exact .pure _ _
  | «variable» ref => exact VarRef.WellFormed.eval_failsOnlyBy hwf definer
  | group expr => exact expr.eval_failsOnlyBy definer hwf
  | call function supplied =>
    refine FailsOnlyBy.bind (.ofExcept (Builtin.find_failsBy function)) fun builtin => ?_
    exact (supplied.eval_failsOnlyBy definer hwf.2.2).bind fun values =>
      .ofExcept (builtin.call_failsBy values)

@[inherit_doc Expr.eval_failsOnlyBy]
theorem Arguments.eval_failsOnlyBy (definer : Definer σ) (supplied : Arguments)
    (hwf : supplied.WellFormed) :
    FailsOnlyBy (supplied.Performs definer) (supplied.eval definer) := by
  cases supplied with
  | nil => exact .pure _ _
  | cons first rest =>
    refine (first.eval_failsOnlyBy definer hwf.1).bind fun value => ?_
    exact (rest.eval_failsOnlyBy definer hwf.2).andThen_pure _
end

/-! ## Lines -/

/-- The classes of what is refused because of its kind, its size or its value. -/
def ReportClass.refusals : List ReportClass :=
  [.mismatch, .dimension, .singular, .unknownFunction, .signature, .invalidArgument]

open Evaluation (Exchanged)

/-- How a line may fail that is evaluated from one state and ends in another. -/
inductive LineFailure (definer : Definer σ) (source : String) (before after : Progress σ) :
    Failure → Prop
  /-- The line is not cut into tokens, or these are not parsed, and nothing has happened. -/
  | unread {report : Report} (hclass : report.cause.reportClass ∈ [.lexical, .syntactic])
      (hstate : after = before) : LineFailure definer source before after (.report report)
  /-- A number in the line has more digits than the limit, and nothing has happened. -/
  | tooLongToRead {tokens : List Token} {number : Token}
      (htokens : Token.ofSource source = .ok tokens) (hnumber : number ∈ tokens)
      (hkind : number.kind = .number)
      (hlong : Numeral.digitLimit < number.text.toList.length) (hstate : after = before) :
      LineFailure definer source before after
        (.fault (.tooLongToRead number.text.toList.length))
  /-- Something is refused because of its kind, its size or its value. -/
  | refused {failure : Failure} (hreport : failure.ReportOf ReportClass.refusals) :
      LineFailure definer source before after failure
  /-- The line comes to a division by a scalar that is zero. -/
  | zeroDivision {failure : Failure} {expr : Expr} {dividend : Value} {divisor : Fraction}
      (hreport : failure.ReportOf [.zeroDivision]) (hparse : Expr.parse source = .ok expr)
      (hdeed : expr.Performs definer before (.divide dividend (.scalar divisor)))
      (hzero : divisor.isZero = true) : LineFailure definer source before after failure
  /-- The last request is cancelled. -/
  | cancelled {asked : List Exchange} {last : Exchange}
      (hexchanged : Exchanged before after (asked ++ [last])) (hlast : last.answered = false) :
      LineFailure definer source before after (Failure.because .cancelled)
  /-- The line comes to a product of matrices whose sizes do not fit, and one of these is too long
  to be reported. -/
  | tooLongToWrite {expr : Expr} {left right : RatMatrix} (hparse : Expr.parse source = .ok expr)
      (hdeed : expr.Performs definer before (.multiply (.matrix left) (.matrix right)))
      (hsizes : left.cols ≠ right.rows)
      (hlong : ∃ size ∈ [(left.rows : Int), left.cols, right.rows, right.cols],
        Numeral.fits size = false) :
      LineFailure definer source before after (.fault .tooLongToWrite)

/-- An operation that a line comes to and that fails. -/
theorem LineFailure.of_operation {definer : Definer σ} {source : String} {expr : Expr}
    {before after : Progress σ} {operation : Operation} {failure : Failure}
    (hparse : Expr.parse source = .ok expr) (hdeed : expr.Performs definer before operation)
    (hfails : operation.Fails failure) : LineFailure definer source before after failure := by
  cases operation with
  | combine op left right =>
    exact .refused (((left.combine_fails right op).of_error hfails).mono (by decide))
  | multiply left right =>
    obtain ⟨m, n, rfl, rfl, hsizes⟩ := (left.multiply_fails right).of_error hfails
    rcases hsizes.report_or_fault with hreport | ⟨rfl, hlong⟩
    · exact .refused (hreport.mono (by decide))
    · exact .tooLongToWrite hparse hdeed hsizes.1 hlong
  | divide left right =>
    rcases (left.divide_fails right).of_error hfails with hreport | ⟨hreport, divisor, rfl, hzero⟩
    · exact .refused (hreport.mono (by decide))
    · exact .zeroDivision hreport hparse hdeed hzero
  | find function =>
    exact .refused (((Builtin.find_fails function).of_error hfails).mono (by decide))
  | call builtin arguments =>
    exact .refused (((builtin.call_fails arguments).of_error hfails).mono (by decide))

namespace Expr

/-- A well-formed line fails as its sum does, or because its target does not take the value. -/
theorem WellFormed.evaluate_error {expr : Expr} (hwf : expr.WellFormed) {definer : Definer σ}
    {before after : Progress σ} {failure : Failure}
    (h : expr.evaluate definer before = .error failure after) :
    expr.sum.eval definer before = .error failure after ∨ failure.ReportOf [.mismatch] := by
  obtain ⟨sum, target⟩ := expr
  obtain ⟨named, rfl⟩ : ∃ named : Option Slot, target = named.map Slot.ref := hwf.exists_named
  cases hresult : sum.eval definer before with
  | error failure' middle =>
    rw [evaluate_of_eval_error hresult] at h
    cases h
    exact .inl hresult
  | ok value middle =>
    obtain ⟨slot, failure', -, hcheck, hrun⟩ | hrun := evaluate_value_cases sum named value
    · rw [hrun hresult] at h
      cases h
      have hchecked := checkTarget_fails slot.ref value
      rw [hcheck] at hchecked
      exact .inr hchecked
    · obtain ⟨slots, -, hended⟩ := hrun hresult
      rw [hended] at h
      cases h

/-- How parsing a line fails. -/
theorem parse_failure {definer : Definer σ} {source : String} {failure : Failure}
    (h : Expr.parse source = .error failure) (before : Progress σ) :
    LineFailure definer source before before failure := by
  cases hscan : Token.scan 0 source.toList with
  | error stopped =>
    have hsource : Token.ofSource source =
        .error (.report ⟨.unrecognized stopped.1 stopped.2, some ⟨source, stopped.2 + 1⟩⟩) := by
      rw [Token.ofSource, hscan]
    rw [Expr.parse, hsource] at h
    cases h
    exact .unread List.mem_cons_self rfl
  | ok tokens =>
    have hsource : Token.ofSource source = .ok tokens := by rw [Token.ofSource, hscan]
    rw [Expr.parse, hsource] at h
    have hvalid := Token.valid_of_ofSource hsource
    rcases ofTokens_error hvalid h with ⟨report, rfl, hclass⟩ | ⟨number, hmem, hkind, hlong, rfl⟩
    · exact .unread (by simp [hclass]) rfl
    · exact .tooLongToRead hsource (List.takeWhile_subset _ hmem) hkind hlong rfl

/-- A line that fails is not read, is refused for one of a few reasons, divides by zero, is
cancelled, or meets the digit limit; and there is a cause for each of these in the line. -/
theorem evaluateLine_failure (definer : Definer σ) (source : String) (before : Progress σ) :
    match evaluateLine definer source before with
    | .ok _ _ => True
    | .error failure after => LineFailure definer source before after failure := by
  have hline : evaluateLine definer source before =
      (Evaluation.ofExcept (parse source) >>= fun expr => expr.evaluate definer) before := rfl
  rw [hline, Evaluation.bind_apply, Evaluation.ofExcept_apply]
  cases hparse : parse source with
  | error failure => exact parse_failure hparse before
  | ok expr =>
    dsimp only
    have hwf := wellFormed_of_parse hparse
    cases hresult : expr.evaluate definer before with
    | ok outcome after => trivial
    | error failure after =>
      rcases hwf.evaluate_error hresult with heval | hreport
      · have hfails : FailsOnlyBy (expr.Performs definer) (expr.sum.eval definer) := by
          obtain ⟨sum, target⟩ := expr
          exact sum.eval_failsOnlyBy definer hwf.sum
        have hfails := hfails before
        rw [heval] at hfails
        rcases hfails with rfl | ⟨operation, hdeed, hfails⟩
        · -- the last request was cancelled, since nothing else fails in this way
          have hfollows := hwf.evaluate_follows definer before
          rw [hresult] at hfollows
          obtain ⟨asked, hexchanged, -, hinterrupted⟩ := hfollows
          generalize hcancelled : Failure.because .cancelled = failure at hinterrupted ⊢
          cases hinterrupted with
          | failed hfailure => exact absurd hcancelled.symm hfailure
          | cancelled hanswered hlast => exact .cancelled hexchanged hlast
        · exact .of_operation hparse hdeed hfails
      · exact .refused (hreport.mono (by decide))

/-- A matrix without rows, and with as many columns as can just be written, is doubled in width:
the report of a product of these has no wording, although no number stands in the line. -/
theorem evaluateLine_tooLongToWrite :
    let definer : Definer Unit := ⟨fun _ user => (none, user), fun _ user => (none, user),
      fun user => (none, user)⟩
    let before : Progress Unit := ⟨.fresh 0 (10 ^ Numeral.digitLimit - 1), (), []⟩
    (∃ after, evaluateLine definer "augment(A, A) * A" before =
        .error (.fault .tooLongToWrite) after) ∧
      ∃ tokens, Token.ofSource "augment(A, A) * A" = .ok tokens ∧
        ∀ token ∈ tokens, token.kind ≠ .number := by
  intro definer before
  let A := Operand.variable ⟨.matrix, some "A"⟩
  let argument := Expr.mk (.term (.factor (.mk false A))) none
  let tree := Expr.mk (.term (.join (.factor (.mk false (.call "augment"
    (.cons argument (.cons argument .nil))))) .mul (.mk false A))) none
  have hwf : tree.WellFormed := by
    have hname : FunctionName "augment" := ⟨by decide, List.all_eq_true.1 rfl⟩
    have hA : VarRef.WellFormed ⟨.matrix, some "A"⟩ := ⟨'A', rfl, rfl⟩
    exact ⟨⟨⟨hname, nofun, ⟨rfl, hA⟩, ⟨rfl, hA⟩, trivial⟩, hA⟩, by decide, nofun⟩
  have htext : tree.text = "augment(A, A) * A" := by decide +kernel
  have hparse : Expr.parse "augment(A, A) * A" = .ok tree := by
    rw [← htext]
    exact hwf.parse_text
  constructor
  · have hfails : Evaluation.failure? (tree.evaluate definer before) =
        some (.fault .tooLongToWrite) := by
      decide +kernel
    obtain ⟨after, hresult⟩ := Evaluation.exists_of_failure? hfails
    refine ⟨after, ?_⟩
    -- the sizes are not to be computed any more
    clear_value before
    rw [evaluateLine, hparse]
    exact hresult
  · obtain ⟨tokens, htokens, hwords⟩ := hwf.exists_tokens
    refine ⟨tokens, htext ▸ htokens, ?_⟩
    have hkinds : ∀ word ∈ tokens.map Token.word, word.kind ≠ .number := by
      rw [hwords]
      decide +kernel
    exact fun token htoken => hkinds token.word (List.mem_map_of_mem htoken)

end Expr

end MatrixCalc
