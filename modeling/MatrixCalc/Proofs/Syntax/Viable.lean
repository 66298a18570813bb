import MatrixCalc.Proofs.Syntax.Grammar

/-!
# Lines are refused at the earliest token

`Viable kinds` says that some line of the grammar starts with tokens of these kinds. That is so
exactly if they lead from where a factor is expected to somewhere (`viable_iff`): what is expected
there can be completed to a line, which the parser then reads. A line that is refused is refused
at the first token behind which it is not viable, or at the first that opens more than the limit
(`Expr.ofTokens_refuses_earliest`).
-/

namespace MatrixCalc

open MatrixCalc.Parser MatrixCalc.Token

/-- `Viable kinds` says that a line of the grammar, with the end of the input behind it, starts
with tokens of these kinds. Groups and calls may nest in it to any depth. -/
def Viable (kinds : List TokenKind) : Prop :=
  ∃ line expr, DerivesLine line expr ∧ kinds <+: line.map Token.kind ++ [.endOfInput]

/-! ## Where derivations lead -/

/-- An operand is not derived from nothing. -/
theorem DerivesOperand.ne_nil {tokens : List Token} {operand : Operand}
    (h : DerivesOperand tokens operand) : tokens ≠ [] := by
  cases h <;> exact List.cons_ne_nil _ _

mutual
/-- Where a factor is expected, an expression leads to its end. -/
theorem DerivesExpr.after {tokens : List Token} {expr : Expr} (h : DerivesExpr tokens expr)
    (opened : List Opened) :
    Expectation.after (.factor opened) (tokens.map Token.kind) = some (.operator opened) := by
  cases h with
  | mk hsum => exact hsum.after opened

@[inherit_doc DerivesExpr.after]
theorem DerivesSum.after {tokens : List Token} {sum : Sum} (h : DerivesSum tokens sum)
    (opened : List Opened) :
    Expectation.after (.factor opened) (tokens.map Token.kind) = some (.operator opened) := by
  cases h with
  | term hlast => exact hlast.after opened
  | join hbefore hsign hlast =>
    rw [List.map_append, List.map_cons, Expectation.after_append_of (hbefore.after opened),
      Expectation.after_cons, hsign, Expectation.next_operator_addOp, Option.bind_some,
      hlast.after opened]

@[inherit_doc DerivesExpr.after]
theorem DerivesTerm.after {tokens : List Token} {term : Term} (h : DerivesTerm tokens term)
    (opened : List Opened) :
    Expectation.after (.factor opened) (tokens.map Token.kind) = some (.operator opened) := by
  cases h with
  | factor hlast => exact hlast.after opened
  | join hbefore hsign hlast =>
    rw [List.map_append, List.map_cons, Expectation.after_append_of (hbefore.after opened),
      Expectation.after_cons, hsign, Expectation.next_operator_mulOp, Option.bind_some,
      hlast.after opened]

@[inherit_doc DerivesExpr.after]
theorem DerivesFactor.after {tokens : List Token} {factor : Factor}
    (h : DerivesFactor tokens factor) (opened : List Opened) :
    Expectation.after (.factor opened) (tokens.map Token.kind) = some (.operator opened) := by
  cases h with
  | plain hoperand =>
    refine Expectation.after_factor_of_operand (hoperand.after opened) ?_
    simpa using hoperand.ne_nil
  | negated hsign hoperand =>
    rw [List.map_cons, Expectation.after_cons, hsign, ← hoperand.after opened]
    rfl

/-- Where an operand is expected, an operand leads to its end. -/
theorem DerivesOperand.after {tokens : List Token} {operand : Operand}
    (h : DerivesOperand tokens operand) (opened : List Opened) :
    Expectation.after (.operand opened) (tokens.map Token.kind) = some (.operator opened) := by
  cases h with
  | number hkind =>
    rw [List.map_singleton, Expectation.after_cons, hkind]
    rfl
  | «variable» hkind =>
    rw [List.map_singleton, Expectation.after_cons, hkind, Expectation.next_operand_refKind]
    rfl
  | group hopening hinside hclosing =>
    rw [List.map_cons, List.map_append, List.map_singleton, Expectation.after_cons, hopening,
      hclosing]
    exact Expectation.after_append_of (hinside.after (.group :: opened))
  | call hname hopening hinside hclosing =>
    rw [List.map_cons, List.map_cons, List.map_append, List.map_singleton,
      Expectation.after_cons, hname, hopening, hclosing]
    exact Expectation.after_append_of (hinside.after opened)

/-- Where the first argument of a call is expected, the arguments lead to their end. -/
theorem DerivesArguments.after {tokens : List Token} {supplied : Arguments}
    (h : DerivesArguments tokens supplied) (opened : List Opened) :
    Expectation.after (.factor (.call :: opened)) (tokens.map Token.kind) =
      some (.operator (.call :: opened)) := by
  cases h with
  | single honly => exact honly.after (.call :: opened)
  | cons hfirst hcomma hrest =>
    rw [List.map_append, List.map_cons,
      Expectation.after_append_of (hfirst.after (.call :: opened)), hcomma, ← hrest.after opened]
    rfl
end

/-- A line that the grammar derives is read to the end of the input. -/
theorem DerivesLine.after {tokens : List Token} {expr : Expr} (h : DerivesLine tokens expr) :
    Expectation.after (.factor []) (tokens.map Token.kind ++ [.endOfInput]) = some .nothing := by
  obtain ⟨hsum, htarget⟩ := h
  rw [List.map_append, List.append_assoc, Expectation.after_append_of (hsum.after [])]
  cases htarget with
  | none => rfl
  | some harrow hplain hnamed =>
    rw [List.map_cons, List.map_singleton, harrow, hnamed]
    rcases hplain with rfl | rfl <;> rfl

/-! ## Lines of given kinds -/

/-- What a token of a kind may be written as. -/
def TokenKind.sample : TokenKind → String
  | .endOfInput => ""
  | .plus => "+"
  | .minus => "-"
  | .times => "*"
  | .divide => "/"
  | .arrow => "->"
  | .comma => ","
  | .leftParen => "("
  | .rightParen => ")"
  | .number => "0"
  | .function => "abs"
  | .matrix => "A"
  | .scalar => "a"
  | .defineMatrix => "$A"
  | .defineScalar => "$a"
  | .defineAnonymous => "$$"

/-- Each kind admits its sample. -/
theorem TokenKind.admits_sample (kind : TokenKind) : kind.Admits kind.sample.toList := by
  cases kind with
  | endOfInput | plus | minus | times | divide | arrow | comma | leftParen | rightParen
  | defineAnonymous => rfl
  | number => exact ⟨List.cons_ne_nil _ _, List.all_eq_true.1 rfl⟩
  | function => exact ⟨by decide, List.all_eq_true.1 rfl⟩
  | matrix | scalar | defineMatrix | defineScalar => exact ⟨_, rfl, rfl⟩

/-- A token of a kind. -/
def Token.sample (kind : TokenKind) : Token :=
  ⟨kind, kind.sample, 0⟩

/-- The sample of each kind can be read. -/
theorem Token.readable_sample (kind : TokenKind) : (Token.sample kind).Readable := by
  refine ⟨kind.admits_sample, fun hkind => ?_⟩
  obtain rfl : kind = .number := hkind
  decide

/-- The samples of some kinds are of these kinds. -/
theorem Token.map_kind_sample (kinds : List TokenKind) :
    (kinds.map Token.sample).map Token.kind = kinds := by
  rw [List.map_map]
  exact List.map_id' kinds

/-- Nothing stands behind the end of the input. -/
theorem Expectation.after_nothing {last : Expectation} {kinds : List TokenKind}
    (h : Expectation.after .nothing kinds = some last) : last = .nothing := by
  cases kinds with
  | nil =>
    cases h
    rfl
  | cons kind kinds => cases h

/-- Behind an arrow, what leads to the end of a line is a variable. -/
theorem exists_derivesTarget_arrow {arrow : Token} {tokens : List Token} {last : Expectation}
    (harrow : arrow.kind = .arrow)
    (h : Expectation.after .target (tokens.map Token.kind) = some last)
    (hlast : last = .operator [] ∨ last = .finish) :
    ∃ target, DerivesTarget (arrow :: tokens) target := by
  cases tokens with
  | nil =>
    cases h
    simp at hlast
  | cons named behind =>
    obtain ⟨middle, hnamed, hbehind⟩ := Option.bind_eq_some_iff.1 (Expectation.after_cons ▸ h)
    have hkind : named.kind = .matrix ∨ named.kind = .scalar := by
      by_contra hkind
      rw [Expectation.next, if_neg hkind] at hnamed
      cases hnamed
    rw [Expectation.next, if_pos hkind] at hnamed
    cases hnamed
    cases behind with
    | nil =>
      rcases hkind with hkind | hkind
      · exact ⟨_, .some harrow (.inl rfl) hkind⟩
      · exact ⟨_, .some harrow (.inr rfl) hkind⟩
    | cons token rest =>
      obtain ⟨after, htoken, hrest⟩ := Option.bind_eq_some_iff.1 (Expectation.after_cons ▸ hbehind)
      by_cases hend : token.kind = .endOfInput
      · rw [Expectation.next, if_pos hend] at htoken
        cases htoken
        rw [Expectation.after_nothing hrest] at hlast
        simp at hlast
      · rw [Expectation.next, if_neg hend] at htoken
        cases htoken

/-- Behind an expression that nothing encloses, what leads to the end of a line is a target. -/
theorem exists_derivesTarget {tokens : List Token} {last : Expectation} (hstop : StopsSum tokens)
    (h : Expectation.after (.operator []) (tokens.map Token.kind) = some last)
    (hlast : last = .operator [] ∨ last = .finish) : ∃ target, DerivesTarget tokens target := by
  cases tokens with
  | nil => exact ⟨none, .none⟩
  | cons token behind =>
    rw [List.map_cons, Expectation.after_cons] at h
    by_cases harrow : token.kind = .arrow
    · rw [harrow] at h
      exact exists_derivesTarget_arrow harrow h hlast
    by_cases hend : token.kind = .endOfInput
    · rw [hend] at h
      rw [Expectation.after_nothing h] at hlast
      simp at hlast
    · have hnone : Expectation.next (.operator []) token.kind = none :=
        next_operator_nil_eq_none hstop harrow hend
      rw [hnone] at h
      cases h

/-- There is no reason to refuse tokens that lead to the end and are fewer than the limit. -/
theorem Refusal.Earliest.elim {limit : Nat} {tokens : List Token} {refusal : Refusal}
    (h : refusal.Earliest limit (.factor []) tokens)
    (hreadable : ∀ token ∈ tokens, token.Readable)
    (hafter : Expectation.after (.factor []) (tokens.map Token.kind ++ [.endOfInput]) =
      some .nothing)
    (hlimit : tokens.length ≤ limit) : False := by
  cases h with
  | @unexpected used behind reached expected htokens hreached hrefused =>
    rw [htokens, List.map_append, List.append_assoc, Expectation.after_append_of hreached] at hafter
    have hfirst : behind.map Token.kind ++ [TokenKind.endOfInput] =
        headKind behind :: (behind.map Token.kind ++ [TokenKind.endOfInput]).tail := by
      cases behind <;> rfl
    rw [hfirst, Expectation.after_cons, hrefused] at hafter
    cases hafter
  | @tooDeep used behind found reached next htokens hreached hopens hnext hdeep =>
    have hopened : reached.opened.length + (used.map Token.kind).count .rightParen =
        0 + (used.map Token.kind).count .leftParen := Expectation.after_opened hreached
    have hcount : (used.map Token.kind).count .leftParen ≤ used.length := by
      simpa using (used.map Token.kind).count_le_length
    have hlength : tokens.length = used.length + (behind.length + 1) := by
      rw [htokens, List.length_append, List.length_cons]
    omega
  | tooLong hmem hkind hlong => exact absurd ((hreadable _ hmem).short hkind) (by omega)

/-- Tokens that lead to the end of a line are a line. -/
theorem exists_derivesLine {tokens : List Token} {last : Expectation}
    (hreadable : ∀ token ∈ tokens, token.Readable)
    (h : Expectation.after (.factor []) (tokens.map Token.kind) = some last)
    (hlast : last = .operator [] ∨ last = .finish) : ∃ expr, DerivesLine tokens expr := by
  -- with as many levels as there are tokens, the parser has no reason to stop before the target
  have hvalid : ∀ token ∈ tokens, token.Valid := fun token htoken => (hreadable token htoken).valid
  have htracks := exprWithin_tracks tokens.length [] (Nat.zero_add _) tokens hvalid
  have hend : Expectation.after (.factor []) (tokens.map Token.kind ++ [.endOfInput]) =
      some .nothing := by
    rw [Expectation.after_append_of h]
    rcases hlast with rfl | rfl <;> rfl
  cases hresult : exprWithin tokens.length tokens with
  | error refusal =>
    rw [hresult] at htracks
    exact (htracks.elim hreadable hend le_rfl).elim
  | ok parsed =>
    rw [hresult] at htracks
    obtain ⟨value, rest, shorter⟩ := parsed
    obtain ⟨used, hsplit, hused, hstop⟩ := htracks
    obtain ⟨used', hsplit', hwords, hwf, -⟩ :=
      exprWithin_reads tokens.length hvalid ⟨shorter, hresult⟩
    obtain rfl : used' = used := List.append_cancel_right (hsplit'.symm.trans hsplit)
    rw [hsplit, List.map_append, Expectation.after_append_of hused] at h
    obtain ⟨target, htarget⟩ := exists_derivesTarget hstop h hlast
    cases value.derives_of_words hwf hwords with
    | @mk _ sum hsum =>
      refine ⟨.mk sum target, ?_⟩
      rw [hsplit]
      exact .mk hsum htarget

/-! ## Viable kinds -/

/-- A line of the grammar starts with tokens of these kinds exactly if they lead somewhere. -/
theorem viable_iff {kinds : List TokenKind} :
    Viable kinds ↔ ∃ reached, Expectation.after (.factor []) kinds = some reached := by
  constructor
  · rintro ⟨line, expr, hderives, hfront⟩
    exact Expectation.exists_after_of_prefix hderives.after hfront
  · rintro ⟨reached, hreached⟩
    have hwhole : Expectation.after (.factor []) (kinds ++ reached.completion) = some .nothing := by
      rw [Expectation.after_append_of hreached, Expectation.after_completion]
    obtain ⟨body, last, hbody, hafter, hlast⟩ := Expectation.after_eq_nothing hwhole (by simp)
    have hkinds : (body.map Token.sample).map Token.kind = body := Token.map_kind_sample body
    have hreadable : ∀ token ∈ body.map Token.sample, token.Readable := by
      rw [List.forall_mem_map]
      exact fun kind _ => Token.readable_sample kind
    rw [← hkinds] at hafter
    obtain ⟨expr, hderives⟩ := exists_derivesLine hreadable hafter hlast
    refine ⟨body.map Token.sample, expr, hderives, ?_⟩
    rw [hkinds, ← hbody]
    exact List.prefix_append _ _

instance (kinds : List TokenKind) : Decidable (Viable kinds) :=
  decidable_of_iff ((Expectation.after (.factor []) kinds).isSome = true)
    (Option.isSome_iff_exists.trans viable_iff.symm)

/-- A minus sign may stand before a factor, but not a second one. -/
example : Viable [.number, .minus, .minus] ∧ ¬ Viable [.number, .minus, .minus, .minus] := by
  decide

/-- Behind tokens that lead somewhere, a token is viable exactly if it is expected there. -/
theorem viable_append_singleton_iff {kinds : List TokenKind} {kind : TokenKind}
    {reached : Expectation} (h : Expectation.after (.factor []) kinds = some reached) :
    Viable (kinds ++ [kind]) ↔ ∃ next, reached.next kind = some next := by
  rw [viable_iff, Expectation.after_append_of h]
  simp

/-! ## The earliest token -/

/-- A line is refused at the earliest token possible, and with kinds that can stand there. For
tokens that can be written as they are, the report names one token and its place. Either what is
before it is viable and with it no longer is, and every kind that is reported as expected is viable
in its place; or it is viable itself, but would open a group or call where as many as the limit are
open. -/
theorem Expr.ofTokens_refuses_earliest {tokens : List Token}
    (hreadable : ∀ token ∈ beforeEnd tokens, token.Readable) {source : Option String}
    {failure : Failure} (h : Expr.ofTokens tokens source = .error failure) :
    ∃ before found behind, completed tokens = before ++ found :: behind ∧
      Viable (before.map Token.kind) ∧
      ((∃ expected,
          failure = .report ⟨.unexpected expected found.kind found.pos,
            source.map fun line => ⟨line, found.pos + 1⟩⟩ ∧
          expected ≠ [] ∧ ¬ Viable (before.map Token.kind ++ [found.kind]) ∧
          ∀ kind ∈ expected, Viable (before.map Token.kind ++ [kind])) ∨
        failure = .report ⟨.nestedTooDeeply found.kind found.pos,
            source.map fun line => ⟨line, found.pos + 1⟩⟩ ∧
          Viable (before.map Token.kind ++ [found.kind]) ∧
          (found.kind = .function ∨ found.kind = .leftParen) ∧
          (before.map Token.kind).count .leftParen =
            (before.map Token.kind).count .rightParen + nestingLimit) := by
  obtain ⟨ending, behindEnd, hcompleted, hending, hpos⟩ := completed_eq tokens
  have hvalid : ∀ token ∈ beforeEnd tokens, token.Valid :=
    fun token htoken => (hreadable token htoken).valid
  obtain ⟨refusal, rfl, hearliest⟩ := Expr.ofTokens_earliest hvalid h
  cases hearliest with
  | @unexpected used behind reached expected htokens hreached hrefused hne hexpected =>
    have hviable : Viable (used.map Token.kind) := viable_iff.2 ⟨reached, hreached⟩
    have hexpected' : ∀ kind ∈ expected, Viable (used.map Token.kind ++ [kind]) :=
      fun kind hkind => (viable_append_singleton_iff hreached).2 (hexpected kind hkind)
    have hrefused' : ¬ Viable (used.map Token.kind ++ [headKind behind]) := by
      rw [viable_append_singleton_iff hreached, hrefused]
      simp
    cases behind with
    | nil =>
      rw [List.append_nil] at htokens
      refine ⟨used, ending, behindEnd, htokens ▸ hcompleted, hviable, .inl ⟨expected, ?_, hne, ?_,
        hexpected'⟩⟩
      · rw [hending, hpos]
        rfl
      · rwa [hending]
    | cons found rest =>
      rw [htokens, List.append_assoc] at hcompleted
      exact ⟨used, found, rest ++ ending :: behindEnd, hcompleted, hviable,
        .inl ⟨expected, rfl, hne, hrefused', hexpected'⟩⟩
  | @tooDeep used behind found reached next htokens hreached hopens hnext hdeep =>
    have hopened := Expectation.after_opened hreached
    rw [hdeep] at hopened
    rw [htokens, List.append_assoc] at hcompleted
    refine ⟨used, found, behind ++ ending :: behindEnd, hcompleted,
      viable_iff.2 ⟨reached, hreached⟩, .inr ⟨rfl, ?_, hopens, ?_⟩⟩
    · exact (viable_append_singleton_iff hreached).2 ⟨next, hnext⟩
    · rw [Nat.add_comm, hopened]
      exact (Nat.zero_add _).symm
  | tooLong hmem hkind hlong => exact absurd ((hreadable _ hmem).short hkind) (by omega)

/-- The comma of `(2*3,` is refused: in its place the parenthesis could have been closed. -/
theorem Expr.ofTokens_refuses_earliest_comma :
    let tokens : List Token :=
      [⟨.leftParen, "(", 0⟩, ⟨.number, "2", 1⟩, ⟨.times, "*", 2⟩, ⟨.number, "3", 3⟩,
        ⟨.comma, ",", 4⟩]
    Expr.ofTokens tokens (some "(2*3,") =
        .error (.report ⟨.unexpected [.rightParen] .comma 4, some ⟨"(2*3,", 5⟩⟩) ∧
      ∃ before found behind, completed tokens = before ++ found :: behind ∧
        found.kind = .comma ∧ found.pos = 4 ∧ Viable (before.map Token.kind) ∧
        ¬ Viable (before.map Token.kind ++ [.comma]) ∧
        Viable (before.map Token.kind ++ [.rightParen]) := by
  intro tokens
  have hreadable : ∀ token ∈ beforeEnd tokens, token.Readable := by
    refine List.forall_mem_cons.2 ⟨⟨rfl, nofun⟩, List.forall_mem_cons.2 ⟨?_,
      List.forall_mem_cons.2 ⟨⟨rfl, nofun⟩, List.forall_mem_cons.2 ⟨?_,
        List.forall_mem_singleton.2 ⟨rfl, nofun⟩⟩⟩⟩⟩
    · exact ⟨⟨by decide, List.all_eq_true.1 rfl⟩, fun _ => by decide⟩
    · exact ⟨⟨by decide, List.all_eq_true.1 rfl⟩, fun _ => by decide⟩
  have hrefused : Expr.ofTokens tokens (some "(2*3,") =
      .error (.report ⟨.unexpected [.rightParen] .comma 4, some ⟨"(2*3,", 5⟩⟩) := by
    decide +kernel
  refine ⟨hrefused, ?_⟩
  obtain ⟨before, found, behind, hsplit, hviable, ⟨expected, hreport, -, hnot, hexpected⟩ |
    ⟨hreport, -⟩⟩ := Expr.ofTokens_refuses_earliest hreadable hrefused
  · injection hreport with hreport
    injection hreport with hcause
    injection hcause with hkinds hkind hpos
    subst hkinds
    rw [← hkind] at hnot
    exact ⟨before, found, behind, hsplit, hkind.symm, hpos.symm, hviable, hnot,
      hexpected _ List.mem_cons_self⟩
  · cases hreport

end MatrixCalc
