import MatrixCalc.Proofs.Evaluation.ErrorSurface
import MatrixCalc.Proofs.Session.History

/-!
# What a session does not survive

`Session.handle_returns`: a session answers every line, and goes on unless the line is `exit` or
`quit`, with one exception, the digit limit. A line meets the limit if a number in it is too long
to be read, if the report of a product has no wording, or if a value that is to be printed has a
number that is too long. `Session.MeetsLimit` lists these ways, and each of them does stop the
session. Values grow from line to line, so that short lines are enough for this
(`Session.handle_overgrown`).
-/

namespace MatrixCalc

variable {σ : Type}

/-! ## Faults of a line -/

/-- The ways in which evaluating a line meets the digit limit. -/
inductive Expr.Overlong (definer : Definer σ) (source : String) (before : Progress σ) :
    Fault → Prop
  /-- A number in the line has more digits than the limit. -/
  | literal {tokens : List Token} {number : Token} (htokens : Token.ofSource source = .ok tokens)
      (hnumber : number ∈ tokens) (hkind : number.kind = .number)
      (hlong : Numeral.digitLimit < number.text.toList.length) :
      Overlong definer source before (.tooLongToRead number.text.toList.length)
  /-- The line comes to a product of matrices whose sizes do not fit, and one of these is too long
  to be reported. -/
  | sizes {expr : Expr} {left right : RatMatrix} (hparse : Expr.parse source = .ok expr)
      (hdeed : expr.Performs definer before (.multiply (.matrix left) (.matrix right)))
      (hsizes : left.cols ≠ right.rows)
      (hlong : ∃ size ∈ [(left.rows : Int), left.cols, right.rows, right.cols],
        Numeral.fits size = false) :
      Overlong definer source before .tooLongToWrite

/-- The failures of a line that are faults are those at the digit limit. -/
theorem LineFailure.overlong {definer : Definer σ} {source : String} {before after : Progress σ}
    {fault : Fault} (h : LineFailure definer source before after (.fault fault)) :
    Expr.Overlong definer source before fault := by
  generalize hfailure : Failure.fault fault = failure at h
  cases h with
  | unread | cancelled => cases hfailure
  | tooLongToRead htokens hnumber hkind hlong =>
    cases hfailure
    exact .literal htokens hnumber hkind hlong
  | refused hreport | zeroDivision hreport =>
    subst hfailure
    exact hreport.elim
  | tooLongToWrite hparse hdeed hsizes hlong =>
    cases hfailure
    exact .sizes hparse hdeed hsizes hlong

/-- Evaluating a line ends in a fault only at the digit limit. -/
theorem Expr.evaluateLine_fault {definer : Definer σ} {source : String}
    {before after : Progress σ} {fault : Fault}
    (h : evaluateLine definer source before = .error (.fault fault) after) :
    Overlong definer source before fault := by
  rw [evaluateLine_eq] at h
  cases hparse : parse source with
  | error failure =>
    rw [hparse] at h
    cases h
    exact (parse_failure hparse before).overlong
  | ok expr =>
    rw [hparse] at h
    have hwf := wellFormed_of_parse hparse
    rcases hwf.evaluate_error h with heval | hreport
    · obtain ⟨sum, target⟩ := expr
      have hfails := sum.eval_failsOnlyBy definer hwf.sum before
      rw [show sum.eval definer before = _ from heval] at hfails
      rcases hfails with hcancelled | ⟨operation, hdeed, hfails⟩
      · cases hcancelled
      · have hfailure : LineFailure definer source before after (.fault fault) :=
          .of_operation hparse hdeed hfails
        exact hfailure.overlong
    · exact hreport.elim

namespace Session

/-! ## Faults of a session -/

/-- A line meets the digit limit: a value that it prints has a number that is too long, or it
cannot be evaluated because of a number that is. -/
def MeetsLimit (session : Session) (line : String) (fault : Fault) : Prop :=
  match lineKind session.maxLength (Text.strip line) with
  | .leave | .help | .clear | .tooLong => False
  | .blank => fault = .tooLongToWrite ∧ ¬ session.shownValue.fits = true
  | .vars => fault = .tooLongToWrite ∧
      ¬ ∀ slot ∈ Display.listedSlots session.slots, (session.slots.get slot).fits = true
  | .expression =>
      match Expr.evaluateLine Entry.definer (Text.strip line) session.progress with
      | .ok outcome _ => fault = .tooLongToWrite ∧ ¬ outcome.value.fits = true
      | .error (.report _) _ => False
      | .error (.fault met) _ => fault = met ∧
          Expr.Overlong Entry.definer (Text.strip line) session.progress fault

/-- A session that prints something goes on, unless the printing stops. -/
theorem shows_returns {printing : Display Unit} {condition leaves : Prop}
    (h : Display.StopsUnless condition printing) (hleaves : ¬ leaves) (session : Session) :
    match shows printing session with
    | .ok continues _ => (continues = false ↔ leaves) ∧
        ∀ fault, ¬ (fault = Fault.tooLongToWrite ∧ ¬ condition)
    | .error failure _ => ∃ fault, failure = .fault fault ∧
        fault = .tooLongToWrite ∧ ¬ condition := by
  have hends := h.ends session.terminal
  rw [shows_apply]
  cases hresult : printing session.terminal with
  | ok value terminal =>
    rw [hresult] at hends
    exact ⟨iff_of_false nofun hleaves, fun fault hmet => hmet.2 hends⟩
  | error failure terminal =>
    rw [hresult] at hends
    exact ⟨.tooLongToWrite, hends.1, rfl, hends.2⟩

/-- A session answers a line, and goes on unless the line is `exit` or `quit`, except when the line
meets the digit limit. -/
theorem handle_returns (session : Session) (line : String) :
    match handle line session with
    | .ok continues _ =>
        (continues = false ↔ Text.strip line ∈ exitCommands) ∧
          ∀ fault, ¬ MeetsLimit session line fault
    | .error failure _ => ∃ fault, failure = .fault fault ∧ MeetsLimit session line fault := by
  unfold MeetsLimit
  rw [handle_eq, ← @lineKind_eq_leave_iff session.maxLength]
  cases hline : lineKind session.maxLength (Text.strip line) <;> dsimp only
  case leave => exact ⟨iff_of_true rfl rfl, fun _ => id⟩
  case clear => exact ⟨iff_of_false nofun nofun, fun _ => id⟩
  case tooLong => exact ⟨iff_of_false nofun nofun, fun _ => id⟩
  case blank => exact shows_returns (Display.value_stopsUnless session.shownValue) nofun session
  case vars => exact shows_returns (Display.changedSlots_stopsUnless session.slots) nofun session
  case help =>
    rw [shows_apply]
    exact ⟨iff_of_false nofun nofun, fun _ => id⟩
  case expression =>
    unfold evaluates
    cases hresult : Expr.evaluateLine Entry.definer (Text.strip line) session.progress with
    | ok outcome progress => exact shows_returns (Display.result_stopsUnless outcome) nofun _
    | error failure progress =>
      cases failure with
      | report shown => exact ⟨iff_of_false nofun nofun, fun _ => id⟩
      | fault met => exact ⟨met, rfl, rfl, Expr.evaluateLine_fault hresult⟩

/-- With the usual settings a few short lines multiply a number until it is too long to be
printed, and the last of them, which is neither `exit` nor `quit`, is not answered. -/
theorem handle_overgrown :
    let power : Entered := ⟨"z*z*z*z*z*z*z*z", []⟩
    let session := (Event.record answer (fresh ⟨.warning, 3, 3, 1000⟩ (.start []))
      [⟨"999999999", []⟩, power, power]).1
    Text.strip power.line ∉ exitCommands ∧
      ∃ after, handle power.line (session.facing power.typed) =
        .error (.fault .tooLongToWrite) after := by
  intro power session
  refine ⟨by decide +kernel, ?_⟩
  have hfails : (match handle power.line (session.facing power.typed) with
      | .ok .. => none
      | .error failure _ => some failure) = some (Failure.fault .tooLongToWrite) := by
    decide +kernel
  cases hresult : handle power.line (session.facing power.typed) with
  | ok continues after =>
    rw [hresult] at hfails
    cases hfails
  | error failure after =>
    rw [hresult] at hfails
    cases hfails
    exact ⟨after, rfl⟩

end Session

end MatrixCalc
