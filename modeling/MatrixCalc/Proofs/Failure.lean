import MatrixCalc.Report

/-!
# Failures by class

A report is told from others by its class, not by its wording: a line that cannot be cut into
tokens or parsed, values of kinds or sizes that do not fit, and so on. A cause whose numbers are too
long to be written is reported in no class.
-/

namespace MatrixCalc

/-- A report of one of some classes. -/
def Failure.ReportOf (classes : List ReportClass) : Failure → Prop
  | .report shown => shown.cause.reportClass ∈ classes
  | .fault _ => False

/-- A cause whose numbers can be written is reported. -/
theorem Failure.because_of_fits {cause : Cause} (h : cause.numbers.all Numeral.fits = true) :
    because cause = .report ⟨cause, none⟩ :=
  if_pos h

/-- A cause with a number that is too long fails for that. -/
theorem Failure.because_of_long {cause : Cause} (h : ¬ cause.numbers.all Numeral.fits = true) :
    because cause = .fault .tooLongToWrite :=
  if_neg h

/-- A cause without numbers is reported as being of its class. -/
theorem Failure.reportOf_because {classes : List ReportClass} (cause : Cause)
    (h : cause.numbers = []) (hclass : cause.reportClass ∈ classes) :
    (because cause).ReportOf classes := by
  rw [because_of_fits (by rw [h, List.all_nil])]
  exact hclass

/-- A report of some classes is one of these and others. -/
theorem Failure.ReportOf.mono {classes classes' : List ReportClass} {failure : Failure}
    (h : failure.ReportOf classes) (hsub : classes ⊆ classes') : failure.ReportOf classes' := by
  cases failure with
  | report shown => exact hsub h
  | fault raised => exact h

/-- The failure of a request that was not answered is in a class of its own. -/
theorem Failure.ReportOf.ne_cancelled {classes : List ReportClass} {failure : Failure}
    (h : failure.ReportOf classes) (hclass : ReportClass.cancelled ∉ classes) :
    failure ≠ because .cancelled := by
  rintro rfl
  exact hclass h

end MatrixCalc
