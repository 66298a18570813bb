import MatrixCalc.Proofs.Evaluation.Failures
import MatrixCalc.Proofs.Evaluation.Variables

/-!
# Requests follow the text

`Expr.evaluate_requests`: a line asks for the values of its definitions in the order in which they
are written, and for each of them once. If it succeeds, it has asked for all of them and got them.
If it fails, it has stopped somewhere; it stops at a function that is not there, before the
arguments of this function, and at a request that is cancelled.

`Follows words evaluation` says this of an evaluation and the words of the tree that it evaluates.
It is kept by doing one thing after the other, when the words are put in this order
(`Follows.bind`). That the answers taken down are those of the definer holds of every line
(`Expr.evaluate_answered`).
-/

namespace MatrixCalc

/-! ## Requests among words -/

namespace Word

/-- Whether a word asks for a value. -/
def isRequest (word : Word) : Bool :=
  word.kind = .defineMatrix || word.kind = .defineScalar || word.kind = .defineAnonymous

/-- Whether a word names a function that is not there. -/
def isUnknown (word : Word) : Bool :=
  word.kind = .function && (Builtin.find word.text).toOption.isNone

/-- The requests among some words. -/
def requests (words : List Word) : List Word :=
  words.filter isRequest

/-- The requests among some words come before those among later ones. -/
theorem requests_append (words later : List Word) :
    requests (words ++ later) = requests words ++ requests later :=
  List.filter_append words later

/-- The words before the first function that is not there. -/
def beforeUnknown (words : List Word) : List Word :=
  words.takeWhile fun word => !word.isUnknown

/-- A word that asks for nothing and stops no evaluation. -/
def Inert (word : Word) : Prop :=
  word.isRequest = false ∧ word.isUnknown = false

/-- A word that is no request and no function is inert. -/
theorem inert_of_kind {word : Word} (hkind : word.isRequest = false)
    (hfunction : word.kind ≠ .function) : word.Inert :=
  ⟨hkind, by simp [isUnknown, hfunction]⟩

/-- Signs are inert. -/
theorem IsSign.inert {word : Word} (h : word.IsSign) : word.Inert := by
  cases h with
  | addOp op => cases op <;> exact ⟨rfl, rfl⟩
  | mulOp op => cases op <;> exact ⟨rfl, rfl⟩
  | _ => exact ⟨rfl, rfl⟩

/-- Later words put nothing before the first function that is not there. -/
theorem beforeUnknown_prefix (words later : List Word) :
    beforeUnknown words <+: beforeUnknown (words ++ later) := by
  induction words with
  | nil => exact List.nil_prefix
  | cons first rest ih =>
    simp only [beforeUnknown, List.cons_append, List.takeWhile_cons] at ih ⊢
    split
    · exact (List.prefix_cons_inj first).2 ih
    · exact List.prefix_refl _

end Word

open Word (requests beforeUnknown)

/-- The exchanges of an evaluation that failed: either each request was answered and something else
failed, or the last request was cancelled. -/
inductive Interrupted : Failure → List Exchange → Prop
  | failed {failure : Failure} {asked : List Exchange}
      (hfailure : failure ≠ Failure.because .cancelled)
      (hanswered : ∀ exchange ∈ asked, exchange.answered = true) : Interrupted failure asked
  | cancelled {asked : List Exchange} {last : Exchange}
      (hanswered : ∀ exchange ∈ asked, exchange.answered = true)
      (hlast : last.answered = false) :
      Interrupted (Failure.because .cancelled) (asked ++ [last])

/-- Exchanges that were answered may have come before. -/
theorem Interrupted.append {failure : Failure} {asked later : List Exchange}
    (hasked : ∀ exchange ∈ asked, exchange.answered = true) (h : Interrupted failure later) :
    Interrupted failure (asked ++ later) := by
  cases h with
  | failed hfailure hlater => exact .failed hfailure (List.forall_mem_append.2 ⟨hasked, hlater⟩)
  | cancelled hlater hlast =>
    rw [← List.append_assoc]
    exact .cancelled (List.forall_mem_append.2 ⟨hasked, hlater⟩) hlast

namespace Evaluation

variable {σ α β : Type}

/-- An evaluation asks for what the words ask for. If it succeeds, all functions among the words
are there, and each request was made and answered; if not, it has stopped at some word. -/
def Follows (words : List Word) (evaluation : Evaluation σ α) : Prop :=
  ∀ before, match evaluation before with
    | .ok _ after => ∃ asked, Exchanged before after asked ∧ beforeUnknown words = words ∧
        asked.map Exchange.word = requests words ∧ ∀ exchange ∈ asked, exchange.answered = true
    | .error failure after => ∃ asked, Exchanged before after asked ∧
        asked.map Exchange.word <+: requests (beforeUnknown words) ∧ Interrupted failure asked

namespace Follows

variable {words later : List Word}

/-- Returning a value asks for nothing. -/
theorem pure (value : α) : Follows [] (Pure.pure value : Evaluation σ α) :=
  fun before => ⟨[], .refl before, rfl, rfl, nofun⟩

/-- One evaluation after the other. -/
theorem bind {first : Evaluation σ α} {next : α → Evaluation σ β} (h : Follows words first)
    (hnext : ∀ value, Follows later (next value)) : Follows (words ++ later) (first >>= next) := by
  intro before
  have hfirst := h before
  rw [bind_apply]
  cases hresult : first before with
  | error failure middle =>
    rw [hresult] at hfirst
    obtain ⟨asked, hasked, hprefix, hinterrupted⟩ := hfirst
    have hlonger := (Word.beforeUnknown_prefix words later).filter Word.isRequest
    exact ⟨asked, hasked, hprefix.trans hlonger, hinterrupted⟩
  | ok value middle =>
    rw [hresult] at hfirst
    obtain ⟨asked, hasked, hknown, hwords, hanswered⟩ := hfirst
    have happend : beforeUnknown (words ++ later) = words ++ beforeUnknown later := by
      rw [beforeUnknown, List.takeWhile_append_of_pos (List.takeWhile_eq_self_iff.1 hknown)]
      rfl
    have hsecond := hnext value middle
    dsimp only
    cases hresult' : next value middle with
    | ok value' after =>
      rw [hresult'] at hsecond
      obtain ⟨asked', hasked', hknown', hwords', hanswered'⟩ := hsecond
      refine ⟨asked ++ asked', hasked.trans hasked', by rw [happend, hknown'], ?_,
        List.forall_mem_append.2 ⟨hanswered, hanswered'⟩⟩
      rw [List.map_append, hwords, hwords', Word.requests_append]
    | error failure after =>
      rw [hresult'] at hsecond
      obtain ⟨asked', hasked', hprefix, hinterrupted⟩ := hsecond
      refine ⟨asked ++ asked', hasked.trans hasked', ?_, hinterrupted.append hanswered⟩
      rw [happend, List.map_append, hwords, Word.requests_append]
      exact (List.prefix_append_right_inj _).2 hprefix

/-- A word that asks for nothing. -/
theorem cons {evaluation : Evaluation σ α} {word : Word} (hword : word.Inert)
    (h : Follows words evaluation) : Follows (word :: words) evaluation := by
  have hbefore : beforeUnknown (word :: words) = word :: beforeUnknown words := by
    rw [beforeUnknown, List.takeWhile_cons_of_pos (by simp [hword.2])]
    rfl
  have hrequests : ∀ some : List Word, requests (word :: some) = requests some :=
    fun some => List.filter_cons_of_neg (by simp [hword.1])
  intro before
  have hends := h before
  cases hresult : evaluation before with
  | ok value after =>
    rw [hresult] at hends
    obtain ⟨asked, hasked, hknown, hwords, hanswered⟩ := hends
    exact ⟨asked, hasked, by rw [hbefore, hknown], by rw [hrequests, hwords], hanswered⟩
  | error failure after =>
    rw [hresult] at hends
    obtain ⟨asked, hasked, hprefix, hinterrupted⟩ := hends
    exact ⟨asked, hasked, by rw [hbefore, hrequests]; exact hprefix, hinterrupted⟩

/-- A word at the end that asks for nothing. -/
theorem append_inert {evaluation : Evaluation σ α} {word : Word} (hword : word.Inert)
    (h : Follows words evaluation) : Follows (words ++ [word]) evaluation := by
  have hbind := h.bind fun value => (Follows.pure value).cons hword
  rwa [bind_pure] at hbind

/-- A result that does not depend on the state asks for nothing. -/
theorem ofExcept {result : Except Failure α}
    (h : Meets (fun _ => True) (· ≠ Failure.because .cancelled) result) :
    Follows [] (Evaluation.ofExcept result : Evaluation σ α) := by
  intro before
  rw [ofExcept_apply]
  cases result with
  | ok value => exact ⟨[], .refl before, rfl, rfl, nofun⟩
  | error failure => exact ⟨[], .refl before, List.prefix_refl _, .failed h nofun⟩

/-- An evaluation that fails at once has asked for nothing. -/
theorem of_error {evaluation : Evaluation σ α} {failure : Failure}
    (hfailure : failure ≠ Failure.because .cancelled)
    (h : ∀ before, evaluation before = .error failure before) (words : List Word) :
    Follows words evaluation := by
  intro before
  rw [h before]
  exact ⟨[], .refl before, List.nil_prefix, .failed hfailure nofun⟩

/-- A write that is not refused asks for nothing. -/
theorem write {change : Slots → Except Failure Slots}
    (h : ∀ slots, ∃ after, change slots = .ok after) :
    Follows [] (Evaluation.write change : Evaluation σ Unit) := by
  intro before
  obtain ⟨slots, hslots⟩ := h before.slots
  rw [write_eq_ok hslots]
  exact ⟨[], .refl before, rfl, rfl, nofun⟩

/-- An evaluation that makes one request. -/
theorem of_asks {evaluation : Evaluation σ α} {word : Word} (hrequest : word.isRequest = true)
    (hknown : word.isUnknown = false) (h : ∀ before, Asks word before (evaluation before)) :
    Follows [word] evaluation := by
  have hbefore : beforeUnknown [word] = [word] := by simp [beforeUnknown, hknown]
  have hrequests : requests [word] = [word] := by simp [requests, hrequest]
  intro before
  have hasks := h before
  cases hresult : evaluation before with
  | ok value after =>
    rw [hresult] at hasks
    cases hasks with
    | @answered exchange _ _ hword hanswered hexchanged =>
      exact ⟨[exchange], hexchanged, hbefore, by rw [hrequests, List.map_singleton, hword],
        List.forall_mem_singleton.2 hanswered⟩
  | error failure after =>
    rw [hresult] at hasks
    cases hasks with
    | @cancelled exchange _ hword hanswered hexchanged =>
      refine ⟨[] ++ [exchange], hexchanged, ?_, .cancelled nofun hanswered⟩
      rw [hbefore, hrequests, List.nil_append, List.map_singleton, hword]

/-- Going on without asking. -/
theorem andThen {first : Evaluation σ α} {next : α → Evaluation σ β} (h : Follows words first)
    (hnext : ∀ value, Follows [] (next value)) : Follows words (first >>= next) := by
  have hbind := h.bind hnext
  rwa [List.append_nil] at hbind

/-- Dividing runs out asks for nothing more. -/
theorem divided {runs : Evaluation σ Runs} (h : Follows words runs) :
    Follows words (Evaluation.divided runs) :=
  h.andThen fun runs => .ofExcept (Runs.divideAll_failsBy runs.closed runs.current).ne_cancelled

end Follows

end Evaluation

open Evaluation (Follows)

variable {σ : Type}

/-! ## Variables -/

/-- The references that ask for a value are the definitions. -/
theorem VarRef.isRequest_word (ref : VarRef) : ref.word.isRequest = ref.defines := by
  obtain ⟨kind, name⟩ := ref
  cases kind <;> rfl

/-- A reference is no function. -/
theorem VarRef.isUnknown_word (ref : VarRef) : ref.word.isUnknown = false := by
  obtain ⟨kind, name⟩ := ref
  cases kind <;> rfl

/-- A well-formed reference asks for its value if it is a definition. -/
theorem VarRef.WellFormed.eval_follows {ref : VarRef} (hwf : ref.WellFormed)
    (definer : Definer σ) : Follows [ref.word] (ref.eval definer) := by
  cases hdefines : ref.defines with
  | true =>
    exact .of_asks (ref.isRequest_word.trans hdefines) ref.isUnknown_word
      (hwf.eval_asks hdefines definer)
  | false =>
    refine .cons ⟨ref.isRequest_word.trans hdefines, ref.isUnknown_word⟩ fun before => ?_
    obtain ⟨slot, rfl⟩ := hwf.exists_ref hdefines
    rw [slot.eval_ref]
    exact ⟨[], .refl before, rfl, rfl, nofun⟩

/-! ## Trees -/

mutual
/-- Evaluating a well-formed tree follows its words. -/
theorem Expr.eval_follows (definer : Definer σ) (expr : Expr) (hwf : expr.WellFormedInside) :
    Follows expr.words (expr.eval definer) := by
  obtain ⟨sum, target⟩ := expr
  obtain ⟨rfl, hwf⟩ := hwf
  exact sum.eval_follows definer hwf

@[inherit_doc Expr.eval_follows]
theorem Sum.eval_follows (definer : Definer σ) (sum : Sum) (hwf : sum.WellFormed) :
    Follows sum.words (sum.eval definer) := by
  cases sum with
  | term last => exact (last.evalRuns_follows definer hwf).divided
  | join before op last =>
    refine (before.eval_follows definer hwf.1).bind fun left =>
      .cons (Word.IsSign.addOp op).inert ?_
    exact (last.evalRuns_follows definer hwf.2).divided.andThen fun right =>
      .ofExcept (left.combine_failsBy right op).ne_cancelled

@[inherit_doc Expr.eval_follows]
theorem Term.evalRuns_follows (definer : Definer σ) (term : Term) (hwf : term.WellFormed) :
    Follows term.words (term.evalRuns definer) := by
  cases term with
  | factor last => exact (last.eval_follows definer hwf).andThen fun value => .pure _
  | join before op last =>
    refine (before.evalRuns_follows definer hwf.1).bind fun runs =>
      .cons (Word.IsSign.mulOp op).inert ?_
    exact (last.eval_follows definer hwf.2).andThen fun value =>
      .ofExcept (runs.extend_failsBy op value).ne_cancelled

@[inherit_doc Expr.eval_follows]
theorem Factor.eval_follows (definer : Definer σ) (factor : Factor) (hwf : factor.WellFormed) :
    Follows factor.words (factor.eval definer) := by
  obtain ⟨negated, operand⟩ := factor
  have hoperand := (operand.eval_follows definer hwf).andThen fun value =>
    Follows.pure (if negated then value.negate else value)
  cases negated with
  | true => exact .cons Word.IsSign.minus.inert hoperand
  | false => exact hoperand

@[inherit_doc Expr.eval_follows]
theorem Operand.eval_follows (definer : Definer σ) (operand : Operand) (hwf : operand.WellFormed) :
    Follows operand.words (operand.eval definer) := by
  cases operand with
  | number value => exact .cons (Word.inert_of_kind rfl nofun) (.pure _)
  | «variable» ref => exact VarRef.WellFormed.eval_follows hwf definer
  | group expr =>
    exact .cons Word.IsSign.opening.inert
      ((expr.eval_follows definer hwf).append_inert Word.IsSign.closing.inert)
  | call function supplied =>
    cases supplied with
    | nil => exact absurd rfl hwf.2.1
    | cons first more =>
      cases hfind : Builtin.find function with
      | error failure =>
        -- the evaluation stops at the name of the function, before its arguments
        have hfailure : failure ≠ Failure.because .cancelled :=
          ((Builtin.find_fails function).of_error hfind).ne_cancelled (by decide)
        refine .of_error hfailure (fun before => ?_) _
        show (Evaluation.ofExcept (Builtin.find function) >>= _ : Evaluation σ Value) before = _
        rw [hfind]
        rfl
      | ok builtin =>
        have hfunction : (Word.mk .function function).Inert :=
          ⟨rfl, by simp [Word.isUnknown, hfind, Except.toOption]⟩
        have hsupplied : Follows (first.words ++ more.tailWords)
            ((Arguments.cons first more).eval definer) :=
          (first.eval_follows definer hwf.2.2.1).bind fun value =>
            (more.eval_follows definer hwf.2.2.2).andThen fun values => .pure _
        have hcall : Follows (first.words ++ more.tailWords)
            ((Operand.call function (.cons first more)).eval definer) := by
          show Follows _ (Evaluation.ofExcept (Builtin.find function) >>= _ : Evaluation σ Value)
          rw [hfind]
          exact hsupplied.andThen fun values => .ofExcept (builtin.call_failsBy values).ne_cancelled
        have hclosed := hcall.append_inert Word.IsSign.closing.inert
        rw [List.append_assoc] at hclosed
        exact .cons hfunction (.cons Word.IsSign.opening.inert hclosed)

/-- Evaluating well-formed arguments follows their words. -/
theorem Arguments.eval_follows (definer : Definer σ) (supplied : Arguments)
    (hwf : supplied.WellFormed) : Follows supplied.tailWords (supplied.eval definer) := by
  cases supplied with
  | nil => exact .pure _
  | cons first more =>
    refine .cons Word.IsSign.comma.inert ?_
    exact (first.eval_follows definer hwf.1).bind fun value =>
      (more.eval_follows definer hwf.2).andThen fun values => .pure _
end

/-! ## Lines -/

namespace Expr

open Evaluation (Exchanged final)

/-- Evaluating a well-formed line follows its words. -/
theorem WellFormed.evaluate_follows {expr : Expr} (hwf : expr.WellFormed) (definer : Definer σ) :
    Follows expr.words (expr.evaluate definer) := by
  obtain ⟨sum, target⟩ := expr
  have hsum := sum.eval_follows definer hwf.sum
  have hlast : ∀ (value : Value) (name : Option String), Follows []
      (do Evaluation.write (fun slots => .ok (slots.setLast value)); pure ⟨value, name⟩ :
        Evaluation σ Outcome) :=
    fun value name => (Follows.write fun slots => ⟨_, rfl⟩).andThen fun _ => .pure _
  cases target with
  | none => exact hsum.andThen fun value => hlast value none
  | some ref =>
    obtain ⟨hdefines, href⟩ := hwf.target ref rfl
    obtain ⟨slot, rfl⟩ := href.exists_ref hdefines
    have hline : Follows sum.words ((Expr.mk sum (some slot.ref)).evaluate definer) := by
      show Follows _ (Evaluation.ofExcept (targetName slot.ref) >>= _ : Evaluation σ Outcome)
      rw [targetName_eq hdefines rfl]
      refine hsum.andThen fun value => ?_
      have hchecked := checkTarget_fails slot.ref value
      cases hcheck : checkTarget slot.ref value with
      | error failure =>
        rw [hcheck] at hchecked
        exact .of_error (hchecked.ne_cancelled (by decide)) (fun _ => rfl) []
      | ok checked =>
        have hkind := ((checkTarget_eq_ok_iff hdefines).1 hcheck).trans slot.ref_valueKind
        have hstored : ∀ slots : Slots, ∃ after, slots.setNamed slot.name value = .ok after := by
          intro slots
          obtain ⟨after, hset, -⟩ := slots.setNamed_name hkind
          exact ⟨after, hset⟩
        refine Follows.andThen (.ofExcept trivial) fun _ => ?_
        exact Follows.andThen (.write hstored) fun _ => hlast value (some slot.name)
    have hinert : slot.ref.word.Inert :=
      ⟨slot.ref.isRequest_word.trans hdefines, slot.ref.isUnknown_word⟩
    have hwords := (hline.append_inert Word.IsSign.arrow.inert).append_inert hinert
    rwa [List.append_assoc] at hwords

/-- The tokens of the text of a well-formed line are its words, and the end of the input. -/
theorem WellFormed.exists_tokens {expr : Expr} (hwf : expr.WellFormed) :
    ∃ tokens, Token.ofSource expr.text = .ok tokens ∧
      tokens.map Token.word = expr.words ++ [⟨.endOfInput, ""⟩] := by
  obtain ⟨body, hwords, hscan⟩ := hwf.scans.scan_eq 0
  refine ⟨body ++ [⟨.endOfInput, "", (0 + expr.text.toList.length : Nat)⟩], ?_, ?_⟩
  · rw [Token.ofSource, hscan]
  · rw [List.map_append, hwords]
    rfl

/-- The requests of a parsed line are the first ones of those in its text, in the same order and
each made once, and none of them is behind a function that is not there. What was taken down for
them are the answers of the definer, which the line leaves in the state after the last of them. If
the line succeeds, all requests were made and answered. If it fails, those that were made were
answered, unless the last one was cancelled and the line failed for that. -/
theorem evaluate_requests {source : String} {expr : Expr} (hparse : Expr.parse source = .ok expr)
    (definer : Definer σ) (before : Progress σ) :
    ∃ text tokens asked, expr.write = .ok text ∧ Token.ofSource text = .ok tokens ∧
      Exchanged before (final (expr.evaluate definer before)) asked ∧
      definer.AnswersAll before.user asked (final (expr.evaluate definer before)).user ∧
      asked.map Exchange.word <+: requests (tokens.map Token.word) ∧
      asked.map Exchange.word <+: requests (beforeUnknown (tokens.map Token.word)) ∧
      match expr.evaluate definer before with
      | .ok _ _ => asked.map Exchange.word = requests (tokens.map Token.word) ∧
          ∀ exchange ∈ asked, exchange.answered = true
      | .error failure _ => Interrupted failure asked := by
  have hwf := wellFormed_of_parse hparse
  obtain ⟨tokens, htokens, hwords⟩ := hwf.exists_tokens
  have hbefore : requests (beforeUnknown expr.words) <+:
      requests (beforeUnknown (tokens.map Token.word)) := by
    rw [hwords]
    exact (Word.beforeUnknown_prefix expr.words _).filter _
  have hall : requests (tokens.map Token.word) = requests expr.words := by
    rw [hwords, Word.requests_append]
    exact List.append_nil _
  have hfollows := hwf.evaluate_follows definer before
  obtain ⟨given, hgiven, hanswers⟩ := expr.evaluate_answered definer before
  refine ⟨expr.text, tokens, ?_⟩
  cases hresult : expr.evaluate definer before with
  | ok outcome after =>
    rw [hresult] at hfollows hgiven hanswers
    obtain ⟨asked, hasked, hknown, hmade, hanswered⟩ := hfollows
    obtain rfl := hgiven.unique hasked
    refine ⟨given, hwf.write_eq_ok, htokens, hasked, hanswers, ?_, ?_, ?_, hanswered⟩
    · rw [hall, hmade]
    · rw [hmade, ← hknown]
      exact hbefore
    · rw [hall, hmade]
  | error failure after =>
    rw [hresult] at hfollows hgiven hanswers
    obtain ⟨asked, hasked, hprefix, hinterrupted⟩ := hfollows
    obtain rfl := hgiven.unique hasked
    refine ⟨given, hwf.write_eq_ok, htokens, hasked, hanswers, ?_, hprefix.trans hbefore,
      hinterrupted⟩
    rw [hall]
    exact hprefix.trans ((List.takeWhile_prefix _).filter _)

/-- A line that asks for a scalar, and does not ask for the argument of a function that is not
there. -/
theorem evaluate_requests_unknown :
    let definer : Definer Unit := ⟨fun _ user => (some (.zeros 2 2), user),
      fun _ user => (some 1, user), fun user => (none, user)⟩
    let before : Progress Unit := ⟨.fresh 2 2, (), []⟩
    ∃ expr failure after asked, Expr.parse "$a * nope($B)" = .ok expr ∧
      expr.evaluate definer before = .error failure after ∧ Exchanged before after asked ∧
      definer.AnswersAll before.user asked after.user ∧
      asked.map Exchange.word <+: [⟨.defineScalar, "$a"⟩, ⟨.defineMatrix, "$B"⟩] ∧
      asked.map Exchange.word <+: [⟨.defineScalar, "$a"⟩] ∧ Interrupted failure asked := by
  intro definer before
  let tree := Expr.mk (.term (.join (.factor (.mk false (.variable ⟨.defineScalar, some "a"⟩)))
    .mul (.mk false (.call "nope" (.cons (.mk (.term (.factor (.mk false
      (.variable ⟨.defineMatrix, some "B"⟩)))) none) .nil))))) none
  have hwf : tree.WellFormed := by
    have hname : FunctionName "nope" := ⟨by decide, List.all_eq_true.1 rfl⟩
    exact ⟨⟨⟨'a', rfl, rfl⟩, hname, nofun, ⟨rfl, 'B', rfl, rfl⟩, trivial⟩, by decide, nofun⟩
  have htext : tree.text = "$a * nope($B)" := by decide +kernel
  have hparse : Expr.parse "$a * nope($B)" = .ok tree := by
    rw [← htext]
    exact hwf.parse_text
  obtain ⟨text, tokens, asked, hwrite, htokens, hasked, hanswers, hprefix, hknown, hends⟩ :=
    evaluate_requests hparse definer before
  have hwords : tokens.map Token.word = tree.words ++ [⟨.endOfInput, ""⟩] := by
    obtain ⟨tokens', htokens', hwords⟩ := hwf.exists_tokens
    rw [hwf.write_eq_ok, Except.ok.injEq] at hwrite
    rw [← hwrite, htokens', Except.ok.injEq] at htokens
    rw [← htokens, hwords]
  have hrequests : requests (tokens.map Token.word) =
      [⟨.defineScalar, "$a"⟩, ⟨.defineMatrix, "$B"⟩] := by
    rw [hwords]
    decide +kernel
  have hbefore : requests (beforeUnknown (tokens.map Token.word)) = [⟨.defineScalar, "$a"⟩] := by
    rw [hwords]
    decide +kernel
  rw [hrequests] at hprefix
  rw [hbefore] at hknown
  have hfails : Evaluation.succeeds (tree.evaluate definer before) = false := by decide +kernel
  cases hresult : tree.evaluate definer before with
  | ok outcome after =>
    rw [hresult] at hfails
    cases hfails
  | error failure after =>
    rw [hresult] at hasked hanswers hends
    exact ⟨tree, failure, after, asked, hparse, hresult, hasked, hanswers, hprefix, hknown, hends⟩

end Expr

end MatrixCalc
