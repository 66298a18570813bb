import MatrixCalc.Proofs.Evaluation.Basic
import MatrixCalc.Proofs.Syntax.References

/-!
# What an evaluation keeps

A tree touches the state of an evaluation through its references alone. So a reflexive and
transitive relation that is kept by evaluating each reference of a tree is kept by evaluating the
tree (`Expr.eval_keeps`). There are three things by which the state of a line changes at all: the
definer answers a request, a variable is written by its name, and the last result is written.
`Steps` says that a relation holds across each of them, and then it holds between the states before
and after any line (`Expr.evaluate_keeps`).

The first use of it is that the exchanges taken down are those that took place:
`Expr.evaluate_answered`.
-/

namespace MatrixCalc

open Evaluation (Keeps)

variable {σ : Type}

/-! ## Trees -/

mutual
/-- Evaluating an expression keeps what evaluating each of its references keeps. -/
theorem Expr.eval_keeps {definer : Definer σ} {T : Progress σ → Progress σ → Prop} [Std.Refl T]
    [IsTrans _ T] (expr : Expr) (hrefs : ∀ ref ∈ expr.refs, Keeps T (ref.eval definer)) :
    Keeps T (expr.eval definer) := by
  obtain ⟨sum, target⟩ := expr
  exact sum.eval_keeps hrefs

@[inherit_doc Expr.eval_keeps]
theorem Sum.eval_keeps {definer : Definer σ} {T : Progress σ → Progress σ → Prop} [Std.Refl T]
    [IsTrans _ T] (sum : Sum) (hrefs : ∀ ref ∈ sum.refs, Keeps T (ref.eval definer)) :
    Keeps T (sum.eval definer) := by
  cases sum with
  | term last => exact (last.evalRuns_keeps hrefs).bind fun runs => .ofExcept _
  | join before op last =>
    obtain ⟨hbefore, hlast⟩ := List.forall_mem_append.1 hrefs
    refine (before.eval_keeps hbefore).bind fun left => ?_
    refine Keeps.bind ?_ fun right => .ofExcept _
    exact (last.evalRuns_keeps hlast).bind fun runs => .ofExcept _

@[inherit_doc Expr.eval_keeps]
theorem Term.evalRuns_keeps {definer : Definer σ} {T : Progress σ → Progress σ → Prop} [Std.Refl T]
    [IsTrans _ T] (term : Term) (hrefs : ∀ ref ∈ term.refs, Keeps T (ref.eval definer)) :
    Keeps T (term.evalRuns definer) := by
  cases term with
  | factor last => exact (last.eval_keeps hrefs).bind fun value => .pure _
  | join before op last =>
    obtain ⟨hbefore, hlast⟩ := List.forall_mem_append.1 hrefs
    refine (before.evalRuns_keeps hbefore).bind fun runs => ?_
    exact (last.eval_keeps hlast).bind fun value => .ofExcept _

@[inherit_doc Expr.eval_keeps]
theorem Factor.eval_keeps {definer : Definer σ} {T : Progress σ → Progress σ → Prop} [Std.Refl T]
    [IsTrans _ T] (factor : Factor) (hrefs : ∀ ref ∈ factor.refs, Keeps T (ref.eval definer)) :
    Keeps T (factor.eval definer) := by
  obtain ⟨negated, operand⟩ := factor
  exact (operand.eval_keeps hrefs).bind fun value => .pure _

@[inherit_doc Expr.eval_keeps]
theorem Operand.eval_keeps {definer : Definer σ} {T : Progress σ → Progress σ → Prop} [Std.Refl T]
    [IsTrans _ T] (operand : Operand) (hrefs : ∀ ref ∈ operand.refs, Keeps T (ref.eval definer)) :
    Keeps T (operand.eval definer) := by
  cases operand with
  | number value => exact .pure _
  | «variable» ref => exact hrefs ref List.mem_cons_self
  | group expr => exact expr.eval_keeps hrefs
  | call function supplied =>
    refine Keeps.bind (.ofExcept _) fun builtin => ?_
    exact (supplied.eval_keeps hrefs).bind fun values => .ofExcept _

/-- Evaluating arguments keeps what evaluating each of their references keeps. -/
theorem Arguments.eval_keeps {definer : Definer σ} {T : Progress σ → Progress σ → Prop}
    [Std.Refl T] [IsTrans _ T] (supplied : Arguments)
    (hrefs : ∀ ref ∈ supplied.refs, Keeps T (ref.eval definer)) :
    Keeps T (supplied.eval definer) := by
  cases supplied with
  | nil => exact .pure _
  | cons first rest =>
    obtain ⟨hfirst, hrest⟩ := List.forall_mem_append.1 hrefs
    refine (first.eval_keeps hfirst).bind fun value => ?_
    exact (rest.eval_keeps hrest).bind fun values => .pure _
end

/-! ## Answers of a definer -/

namespace Definer

variable {definer : Definer σ}

/-- What a definer does when it is asked: its answer to the request goes into the exchange, and it
moves on to another state. -/
inductive Answers (definer : Definer σ) : σ → Exchange → σ → Prop
  | matrix (name : String) (user : σ) :
      Answers definer user (.matrix name (definer.matrix name user).1)
        (definer.matrix name user).2
  | scalar (name : String) (user : σ) :
      Answers definer user (.scalar name (definer.scalar name user).1)
        (definer.scalar name user).2
  | anonymous (user : σ) :
      Answers definer user (.anonymous (definer.anonymous user).1) (definer.anonymous user).2

/-- What a definer does when it is asked time after time: each request reaches it in the state in
which the one before has left it. -/
inductive AnswersAll (definer : Definer σ) : σ → List Exchange → σ → Prop
  | nil (user : σ) : AnswersAll definer user [] user
  | cons {user middle last : σ} {exchange : Exchange} {later : List Exchange}
      (hfirst : definer.Answers user exchange middle)
      (hlater : AnswersAll definer middle later last) :
      AnswersAll definer user (exchange :: later) last

/-- Requests after requests. -/
theorem AnswersAll.append {user middle last : σ} {asked later : List Exchange}
    (h : definer.AnswersAll user asked middle) (h' : definer.AnswersAll middle later last) :
    definer.AnswersAll user (asked ++ later) last := by
  induction h with
  | nil user => exact h'
  | cons hfirst _ ih => exact .cons hfirst (ih h')

end Definer

/-! ## Lines -/

/-- A relation that holds across each single change of the state of an evaluation. -/
structure Evaluation.Steps (definer : Definer σ) (T : Progress σ → Progress σ → Prop) : Prop where
  ask : ∀ before exchange user, definer.Answers before.user exchange user →
    T before { before with user, exchanges := before.exchanges ++ [exchange] }
  store : ∀ before name value, Meets (fun slots => T before { before with slots })
    (fun _ => True) (before.slots.setNamed name value)
  last : ∀ before value, T before { before with slots := before.slots.setLast value }

section Lines

variable {definer : Definer σ} {T : Progress σ → Progress σ → Prop} [Std.Refl T] [IsTrans _ T]

/-- Evaluating any reference, well-formed or not, keeps what each single step keeps. -/
theorem VarRef.eval_keeps (hsteps : Evaluation.Steps definer T) (ref : VarRef) :
    Keeps T (ref.eval definer) := by
  have hwrite : ∀ value : Value, Keeps T (Evaluation.write fun slots =>
      ref.requireName >>= fun name => slots.setNamed name value : Evaluation σ Unit) := by
    refine fun value => .write fun before => ?_
    cases ref.requireName with
    | error failure => trivial
    | ok name => exact hsteps.store before name value
  unfold VarRef.eval
  cases ref.kind with
  | matrix | scalar => exact (Keeps.read _).bind fun value => .pure _
  | defineMatrix =>
    refine Keeps.bind (.ask fun before => hsteps.ask before _ _ (.matrix _ _)) fun value => ?_
    exact (hwrite _).bind fun _ => .pure _
  | defineScalar =>
    refine Keeps.bind (.ask fun before => hsteps.ask before _ _ (.scalar _ _)) fun value => ?_
    exact (hwrite _).bind fun _ => .pure _
  | defineAnonymous =>
    exact Keeps.bind (.ask fun before => hsteps.ask before _ _ (.anonymous _)) fun value => .pure _

/-- Evaluating any line, well-formed or not, keeps what each single step keeps. -/
theorem Expr.evaluate_keeps (hsteps : Evaluation.Steps definer T) (expr : Expr) :
    Keeps T (expr.evaluate definer) := by
  have heval : Keeps T (expr.eval definer) := expr.eval_keeps fun ref _ => ref.eval_keeps hsteps
  have hlast : ∀ value : Value, Keeps T
      (Evaluation.write fun slots => .ok (slots.setLast value) : Evaluation σ Unit) :=
    fun value => .write fun before => hsteps.last before value
  unfold Expr.evaluate
  cases expr.target with
  | none => exact heval.bind fun value => (hlast value).bind fun _ => .pure _
  | some target =>
    refine Keeps.bind (.ofExcept _) fun name => heval.bind fun value => ?_
    refine Keeps.bind (.ofExcept _) fun _ => ?_
    refine Keeps.bind (.write fun before => hsteps.store before name value) fun _ => ?_
    exact (hlast value).bind fun _ => .pure _

end Lines

/-! ## Exchanges -/

namespace Evaluation

/-- The exchanges that took place between two states. -/
def Exchanged (before after : Progress σ) (asked : List Exchange) : Prop :=
  after.exchanges = before.exchanges ++ asked

/-- Nothing took place yet. -/
theorem Exchanged.refl (before : Progress σ) : Exchanged before before [] :=
  (List.append_nil _).symm

/-- Exchanges after exchanges. -/
theorem Exchanged.trans {before middle after : Progress σ} {asked later : List Exchange}
    (h : Exchanged before middle asked) (h' : Exchanged middle after later) :
    Exchanged before after (asked ++ later) := by
  rw [Exchanged, h', h, List.append_assoc]

/-- Two states tell which exchanges took place between them. -/
theorem Exchanged.unique {before after : Progress σ} {asked asked' : List Exchange}
    (h : Exchanged before after asked) (h' : Exchanged before after asked') : asked = asked' :=
  List.append_cancel_left (h.symm.trans h')

/-- Between two states the definer was asked for something, and the exchanges that were taken down
are its answers. -/
def Answered (definer : Definer σ) (before after : Progress σ) : Prop :=
  ∃ asked, Exchanged before after asked ∧ definer.AnswersAll before.user asked after.user

instance (definer : Definer σ) : Std.Refl (Answered definer) where
  refl before := ⟨[], .refl before, .nil _⟩

instance (definer : Definer σ) : IsTrans (Progress σ) (Answered definer) where
  trans := by
    rintro before middle after ⟨asked, hasked, hanswers⟩ ⟨later, hlater, hanswers'⟩
    exact ⟨asked ++ later, hasked.trans hlater, hanswers.append hanswers'⟩

/-- Writing asks for nothing. -/
theorem Answered.write (definer : Definer σ) (before : Progress σ) (slots : Slots) :
    Answered definer before { before with slots } :=
  ⟨[], .refl before, .nil _⟩

end Evaluation

/-- The exchanges that a line adds are the answers of the definer, in the order in which it was
asked, and the line leaves it in the state after the last of them. -/
theorem Expr.evaluate_answered (definer : Definer σ) (expr : Expr) :
    Keeps (Evaluation.Answered definer) (expr.evaluate definer) := by
  refine expr.evaluate_keeps ⟨fun before exchange user hanswers => ?_, fun before name value => ?_,
    fun before value => .write definer before _⟩
  · exact ⟨[exchange], rfl, .cons hanswers (.nil user)⟩
  · cases before.slots.setNamed name value with
    | ok slots => exact .write definer before slots
    | error failure => trivial

end MatrixCalc
