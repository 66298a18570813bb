import MatrixCalc.Proofs.Token.Lexeme
import MatrixCalc.Syntax.Parse

/-!
# Where the tokens of a line end

A line is read up to the first token for the end of the input (`beforeEnd`). Tokens without one are
completed by one (`completed`), and then the first of them stands at the position that is reported
for the end (`completed_eq`). What stands behind it does not matter (`Expr.ofTokens_append_cons`).
-/

namespace MatrixCalc

namespace Token

/-- The tokens of a line, up to the first token for the end of the input. -/
def beforeEnd (tokens : List Token) : List Token :=
  tokens.takeWhile fun token => token.kind ≠ .endOfInput

/-- The tokens of a line, with a token for the end of the input at the end if there is none. -/
def completed (tokens : List Token) : List Token :=
  match tokens.getLast? with
  | none => [⟨.endOfInput, "", 0⟩]
  | some last =>
      if last.kind = .endOfInput then tokens else tokens ++ [⟨.endOfInput, "", last.pos + 1⟩]

/-- No token before the end is the end. -/
theorem kind_ne_of_mem_beforeEnd {tokens : List Token} {token : Token}
    (h : token ∈ beforeEnd tokens) : token.kind ≠ .endOfInput := by
  simpa using List.mem_takeWhile_imp h

/-- The tokens before the end are those before the first token that is one. -/
theorem beforeEnd_append_cons {body behind : List Token} {stop : Token}
    (hbody : ∀ token ∈ body, token.kind ≠ .endOfInput) (hstop : stop.kind = .endOfInput) :
    beforeEnd (body ++ stop :: behind) = body :=
  takeWhile_append_of_stop (fun token htoken => decide_eq_true (hbody token htoken))
    (by simp [hstop])

/-- Completing the tokens takes none of them away. -/
theorem completed_eq_append (tokens : List Token) :
    ∃ extra, completed tokens = tokens ++ extra := by
  unfold completed
  split
  · next hlast => exact ⟨_, by rw [List.getLast?_eq_none_iff.1 hlast]; rfl⟩
  · split
    · exact ⟨[], (List.append_nil tokens).symm⟩
    · exact ⟨_, rfl⟩

/-- Tokens that end with the end of the input are complete. -/
theorem completed_append_singleton (front : List Token) {stop : Token}
    (hstop : stop.kind = .endOfInput) : completed (front ++ [stop]) = front ++ [stop] := by
  simp [completed, hstop]

/-- Completed tokens have the end of the input as their last one. -/
theorem completed_eq_append_singleton (tokens : List Token) :
    ∃ front stop, completed tokens = front ++ [stop] ∧ stop.kind = .endOfInput := by
  unfold completed
  split
  · exact ⟨[], _, rfl, rfl⟩
  · next last hlast =>
    split
    · next hend =>
      obtain ⟨front, rfl⟩ := List.getLast?_eq_some_iff.1 hlast
      exact ⟨front, last, rfl, hend⟩
    · exact ⟨tokens, _, rfl, rfl⟩

/-- Behind the tokens before the end of the input stands a token for it, at the position that is
reported for the end. -/
theorem completed_eq (tokens : List Token) :
    ∃ stop behind, completed tokens = beforeEnd tokens ++ stop :: behind ∧
      stop.kind = .endOfInput ∧ stop.pos = Expr.endPosition tokens := by
  cases hfind : tokens.find? fun token => token.kind = .endOfInput with
  | none =>
    have hends : ∀ token ∈ tokens, token.kind ≠ .endOfInput := by
      simpa using List.find?_eq_none.1 hfind
    have hbefore : beforeEnd tokens = tokens :=
      List.takeWhile_eq_self_iff.2 fun token htoken => decide_eq_true (hends token htoken)
    rw [hbefore, Expr.endPosition, hfind, completed]
    cases hlast : tokens.getLast? with
    | none => exact ⟨_, [], by rw [List.getLast?_eq_none_iff.1 hlast]; rfl, rfl, rfl⟩
    | some last =>
      have hkind := hends last (List.mem_of_getLast? hlast)
      exact ⟨_, [], by simp only [if_neg hkind]; rfl, rfl, rfl⟩
  | some stop =>
    obtain ⟨hstop, body, behind, rfl, hbody⟩ := List.find?_eq_some_iff_append.1 hfind
    have hkind : stop.kind = .endOfInput := of_decide_eq_true hstop
    have hbefore : beforeEnd (body ++ stop :: behind) = body :=
      beforeEnd_append_cons (fun token htoken => by simpa using hbody token htoken) hkind
    obtain ⟨extra, hextra⟩ := completed_eq_append (body ++ stop :: behind)
    refine ⟨stop, behind ++ extra, ?_, hkind, ?_⟩
    · rw [hextra, hbefore, List.append_assoc, List.cons_append]
    · rw [Expr.endPosition, hfind]

end Token

/-- Tokens behind an end of the input do not matter. -/
theorem Expr.ofTokens_append_cons (front behind : List Token) {stop : Token}
    (hstop : stop.kind = .endOfInput) (source : Option String) :
    ofTokens (front ++ stop :: behind) source = ofTokens (front ++ [stop]) source := by
  have hbefore : (front ++ stop :: behind).takeWhile (fun token => token.kind ≠ .endOfInput) =
      (front ++ [stop]).takeWhile fun token => token.kind ≠ .endOfInput := by
    simp [List.takeWhile_append, hstop]
  have hend : endPosition (front ++ stop :: behind) = endPosition (front ++ [stop]) := by
    simp [endPosition, List.find?_append, hstop]
  rw [ofTokens, ofTokens, hbefore, hend]

end MatrixCalc
