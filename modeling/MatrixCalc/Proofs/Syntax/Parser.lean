import MatrixCalc.Syntax.Parse

/-!
# What each parser gives

`Gives result value rest` says that a parser returned a value and left some tokens. One lemma for
each parser says when it does, in terms of the parsers it is made of, so that nothing else opens
a parser.
-/

namespace MatrixCalc.Parser

/-- The result of a parser is a value and the tokens left. -/
def Gives {α : Type} {bound : Nat} (result : Except Refusal (Parsed α bound)) (value : α)
    (rest : List Token) : Prop :=
  ∃ shorter, result = .ok ⟨value, rest, shorter⟩

variable {α β ω : Type} {tokens rest : List Token}

/-- A parser that has succeeded gives its value and the tokens it left. -/
theorem gives_ok {bound : Nat} {parsed : Parsed α bound} {value : α} :
    Gives (.ok parsed) value rest ↔ parsed.value = value ∧ parsed.rest = rest := by
  constructor
  · rintro ⟨shorter, h⟩
    cases h
    exact ⟨rfl, rfl⟩
  · rintro ⟨rfl, rfl⟩
    exact ⟨parsed.shorter, rfl⟩

/-- A parser that has refused its tokens gives nothing. -/
theorem gives_error {bound : Nat} {refusal : Refusal} {value : α} :
    ¬ Gives (.error refusal : Except Refusal (Parsed α bound)) value rest := by
  rintro ⟨_, h⟩
  cases h

/-- A step that does not parse has to succeed. -/
theorem gives_bind {bound : Nat} {first : Except Refusal β}
    {next : β → Except Refusal (Parsed α bound)} {value : α} :
    Gives (first >>= next) value rest ↔
      ∃ middle, first = .ok middle ∧ Gives (next middle) value rest := by
  cases first with
  | error refusal =>
    refine ⟨fun h => absurd h gives_error, ?_⟩
    rintro ⟨_, h, _⟩
    cases h
  | ok middle =>
    refine ⟨fun h => ⟨middle, rfl, h⟩, ?_⟩
    rintro ⟨_, h, hnext⟩
    cases h
    exact hnext

/-- Two parsers in a row. -/
theorem gives_bind_parsed {bound bound' : Nat} {first : Except Refusal (Parsed β bound')}
    {next : Parsed β bound' → Except Refusal (Parsed α bound)} {value : α}
    {P : β → List Token → Prop}
    (h : ∀ item middle shorter, Gives (next ⟨item, middle, shorter⟩) value rest ↔ P item middle) :
    Gives (first >>= next) value rest ↔ ∃ item middle, Gives first item middle ∧ P item middle := by
  rw [gives_bind]
  constructor
  · rintro ⟨⟨item, middle, shorter⟩, hfirst, hnext⟩
    exact ⟨item, middle, ⟨shorter, hfirst⟩, (h _ _ _).1 hnext⟩
  · rintro ⟨item, middle, ⟨shorter, hfirst⟩, hthen⟩
    exact ⟨_, hfirst, (h _ _ shorter).2 hthen⟩

/-- A parser whose value is made into another one. -/
theorem gives_bind_ok {bound bound' : Nat} {first : Except Refusal (Parsed β bound')}
    {next : Parsed β bound' → Except Refusal (Parsed α bound)} {value : α} (make : β → α)
    (h : ∀ parsed, ∃ shorter, next parsed = .ok ⟨make parsed.value, parsed.rest, shorter⟩) :
    Gives (first >>= next) value rest ↔ ∃ item, Gives first item rest ∧ value = make item := by
  rw [gives_bind]
  constructor
  · rintro ⟨⟨item, middle, shorter⟩, hfirst, hnext⟩
    obtain ⟨_, hmake⟩ := h ⟨item, middle, shorter⟩
    rw [hmake] at hnext
    obtain ⟨rfl, rfl⟩ := gives_ok.1 hnext
    exact ⟨item, ⟨shorter, hfirst⟩, rfl⟩
  · rintro ⟨item, ⟨shorter, hfirst⟩, rfl⟩
    exact ⟨_, hfirst, h ⟨item, rest, shorter⟩⟩

/-- A parser whose result is passed on. -/
theorem gives_bind_pass {bound bound' : Nat} {first : Except Refusal (Parsed α bound')}
    {next : Parsed α bound' → Except Refusal (Parsed α bound)} {value : α}
    (h : ∀ parsed, ∃ shorter, next parsed = .ok ⟨parsed.value, parsed.rest, shorter⟩) :
    Gives (first >>= next) value rest ↔ Gives first value rest := by
  rw [gives_bind_ok id h]
  constructor
  · rintro ⟨item, hfirst, rfl⟩
    exact hfirst
  · intro hfirst
    exact ⟨value, hfirst, rfl⟩

/-- `expect` gives the next token if this is of one of the kinds. -/
theorem expect_gives {kinds : List TokenKind} {token : Token} :
    Gives (expect kinds tokens) token rest ↔ tokens = token :: rest ∧ token.kind ∈ kinds := by
  cases tokens with
  | nil => simp [expect, gives_error]
  | cons next after =>
    by_cases hkind : next.kind ∈ kinds
    · rw [expect, if_pos hkind, gives_ok]
      constructor
      · rintro ⟨rfl, rfl⟩
        exact ⟨rfl, hkind⟩
      · rintro ⟨h, -⟩
        cases h
        exact ⟨rfl, rfl⟩
    · rw [expect, if_neg hkind]
      refine ⟨fun h => absurd h gives_error, ?_⟩
      rintro ⟨h, hmem⟩
      cases h
      exact absurd hmem hkind

/-! ## Chains -/

section Chains

variable {operator? : TokenKind → Option ω} {item : Parser α} {single : α → β}
  {join : β → ω → α → β} {before value : β}

/-- No operator stands next. -/
def StopsAt (operator? : TokenKind → Option ω) (tokens : List Token) : Prop :=
  ∀ token ∈ tokens.head?, operator? token.kind = none

/-- If no operator stands next, a chain ends with what was read before. -/
theorem joined_gives_of_stop (h : StopsAt operator? tokens) :
    Gives (joined operator? item join before tokens) value rest ↔
      value = before ∧ rest = tokens := by
  cases tokens with
  | nil => rw [joined, gives_ok, eq_comm, eq_comm (a := rest)]
  | cons token after =>
    have hnone : operator? token.kind = none := h token rfl
    rw [joined]
    split
    · rw [gives_ok, eq_comm, eq_comm (a := rest)]
    · next hsome => rw [hnone] at hsome; cases hsome

/-- If an operator stands next, one more item is read, joined to what was read before, and the chain
goes on from there. -/
theorem joined_gives_of_step {token : Token} {operator : ω}
    (h : operator? token.kind = some operator) :
    Gives (joined operator? item join before (token :: tokens)) value rest ↔
      ∃ next middle, Gives (item tokens) next middle ∧
        Gives (joined operator? item join (join before operator next) middle) value rest := by
  rw [joined]
  split
  · next hnone => rw [h] at hnone; cases hnone
  · next found hsome =>
    rw [h] at hsome
    cases hsome
    exact gives_bind_parsed fun _ _ _ => gives_bind_pass fun _ => ⟨_, rfl⟩

/-- A chain is one item and whatever is joined to it. -/
theorem chain_gives :
    Gives (chain operator? item single join tokens) value rest ↔
      ∃ first middle, Gives (item tokens) first middle ∧
        Gives (joined operator? item join (single first) middle) value rest :=
  gives_bind_parsed fun _ _ _ => gives_bind_pass fun _ => ⟨_, rfl⟩

end Chains

/-! ## Groups and calls -/

section Inside

variable {inner : Parser Expr}

/-- If no comma stands next, there are no more arguments. -/
theorem moreArguments_gives_of_stop {value : Arguments}
    (h : ∀ token ∈ tokens.head?, token.kind ≠ .comma) :
    Gives (moreArguments inner tokens) value rest ↔ value = .nil ∧ rest = tokens := by
  cases tokens with
  | nil => rw [moreArguments, gives_ok, eq_comm, eq_comm (a := rest)]
  | cons token after =>
    rw [moreArguments, if_neg (h token rfl), gives_ok, eq_comm, eq_comm (a := rest)]

/-- If a comma stands next, one more argument is read, and then whatever follows it. -/
theorem moreArguments_gives_of_comma {value : Arguments} {token : Token}
    (h : token.kind = .comma) :
    Gives (moreArguments inner (token :: tokens)) value rest ↔
      ∃ first middle, Gives (inner tokens) first middle ∧
        ∃ more, Gives (moreArguments inner middle) more rest ∧ value = .cons first more := by
  rw [moreArguments, if_pos h]
  exact gives_bind_parsed fun first middle _ =>
    gives_bind_ok (Arguments.cons first) fun _ => ⟨_, rfl⟩

/-- Arguments stand in parentheses, and there is at least one. -/
theorem arguments_gives {value : Arguments} :
    Gives (arguments inner tokens) value rest ↔
      ∃ opening after first middle more closing,
        tokens = opening :: after ∧ opening.kind = .leftParen ∧
        Gives (inner after) first middle ∧
        Gives (moreArguments inner middle) more (closing :: rest) ∧
        closing.kind = .rightParen ∧ value = .cons first more := by
  refine (gives_bind_parsed
    (P := fun _ after => ∃ first middle, Gives (inner after) first middle ∧
      ∃ more left, Gives (moreArguments inner middle) more left ∧
        ∃ closing, Gives (expect [.rightParen] left) closing rest ∧ value = .cons first more)
    fun _ _ _ => gives_bind_parsed fun first _ _ => gives_bind_parsed fun more _ _ =>
      gives_bind_ok (fun _ => Arguments.cons first more) fun _ => ⟨_, rfl⟩).trans ?_
  simp only [expect_gives, List.mem_singleton]
  constructor
  · rintro ⟨opening, after, ⟨rfl, hopening⟩, first, middle, hfirst, more, left, hmore, closing,
      ⟨rfl, hclosing⟩, rfl⟩
    exact ⟨opening, after, first, middle, more, closing, rfl, hopening, hfirst, hmore, hclosing,
      rfl⟩
  · rintro ⟨opening, after, first, middle, more, closing, rfl, hopening, hfirst, hmore, hclosing,
      rfl⟩
    exact ⟨opening, after, ⟨rfl, hopening⟩, first, middle, hfirst, more, closing :: rest, hmore,
      closing, ⟨rfl, hclosing⟩, rfl⟩

/-- A group is an expression and the parenthesis that closes it. -/
theorem groupBody_gives {value : Expr} :
    Gives (groupBody inner tokens) value rest ↔
      ∃ closing, Gives (inner tokens) value (closing :: rest) ∧ closing.kind = .rightParen := by
  refine (gives_bind_parsed
    (P := fun body middle => ∃ closing, Gives (expect [.rightParen] middle) closing rest ∧
      value = body)
    fun body _ _ => gives_bind_ok (fun _ => body) fun _ => ⟨_, rfl⟩).trans ?_
  simp only [expect_gives, List.mem_singleton]
  constructor
  · rintro ⟨body, middle, hbody, closing, ⟨rfl, hclosing⟩, rfl⟩
    exact ⟨closing, hbody, hclosing⟩
  · rintro ⟨closing, hbody, hclosing⟩
    exact ⟨value, closing :: rest, hbody, closing, ⟨rfl, hclosing⟩, rfl⟩

end Inside

/-! ## Operands and factors -/

section Operands

variable {inner : Option (Parser Expr)} {token : Token}

/-- A number is read as an operand on its own. -/
theorem operand_gives_number {value : Operand} (h : token.kind = .number) :
    Gives (operand inner (token :: tokens)) value rest ↔
      numberOperand token.text = .ok value ∧ rest = tokens := by
  simp only [operand, h, gives_bind, gives_ok]
  constructor
  · rintro ⟨middle, hnumber, rfl, rfl⟩
    exact ⟨hnumber, rfl⟩
  · rintro ⟨hnumber, rfl⟩
    exact ⟨value, hnumber, rfl, rfl⟩

/-- A variable is read as an operand on its own. -/
theorem operand_gives_variable {value : Operand} {kind : RefKind}
    (h : refKind? token.kind = some kind) :
    Gives (operand inner (token :: tokens)) value rest ↔
      variableOperand kind token.text = .ok value ∧ rest = tokens := by
  have hgives : Gives (operand inner (token :: tokens)) value rest ↔
      Gives (variableOperand kind token.text >>= fun value =>
        .ok (⟨value, tokens, by simp⟩ : Parsed Operand (token :: tokens).length)) value rest := by
    unfold operand
    cases hkind : token.kind <;> rw [hkind] at h <;> simp_all [refKind?]
  rw [hgives, gives_bind]
  simp only [gives_ok]
  constructor
  · rintro ⟨middle, hvariable, rfl, rfl⟩
    exact ⟨hvariable, rfl⟩
  · rintro ⟨hvariable, rfl⟩
    exact ⟨value, hvariable, rfl, rfl⟩

/-- A parenthesis opens a group, if one more level may be opened. -/
theorem operand_gives_group {value : Operand} {inner : Parser Expr} (h : token.kind = .leftParen) :
    Gives (operand (some inner) (token :: tokens)) value rest ↔
      ∃ body, Gives (groupBody inner tokens) body rest ∧ value = .group body := by
  simp only [operand, h]
  exact gives_bind_ok Operand.group fun _ => ⟨_, rfl⟩

/-- The name of a function starts a call, if one more level may be opened. -/
theorem operand_gives_call {value : Operand} {inner : Parser Expr} (h : token.kind = .function) :
    Gives (operand (some inner) (token :: tokens)) value rest ↔
      ∃ supplied, Gives (arguments inner tokens) supplied rest ∧
        value = .call token.text supplied := by
  simp only [operand, h]
  exact gives_bind_ok (Operand.call token.text) fun _ => ⟨_, rfl⟩

/-- An operand starts with a number, a variable, or, where one may still be opened, with a group
or call. -/
theorem operand_gives_cases {value : Operand} (h : Gives (operand inner tokens) value rest) :
    ∃ token after, tokens = token :: after ∧
      (token.kind = .number ∨ (∃ kind, refKind? token.kind = some kind) ∨
        (∃ within, inner = some within) ∧ (token.kind = .leftParen ∨ token.kind = .function)) := by
  cases tokens with
  | nil => exact absurd h gives_error
  | cons token after =>
    refine ⟨token, after, rfl, ?_⟩
    unfold operand at h
    cases hkind : token.kind <;> cases inner <;> simp_all [refKind?, gives_error]

/-- A minus sign negates the operand behind it. -/
theorem factor_gives_minus {value : Factor} (h : token.kind = .minus) :
    Gives (factor inner (token :: tokens)) value rest ↔
      ∃ body, Gives (operand inner tokens) body rest ∧ value = .mk true body := by
  rw [factor, if_pos h]
  exact gives_bind_ok (Factor.mk true) fun _ => ⟨_, rfl⟩

/-- Without a minus sign a factor is an operand. -/
theorem factor_gives_plain {value : Factor} (h : ∀ token ∈ tokens.head?, token.kind ≠ .minus) :
    Gives (factor inner tokens) value rest ↔
      ∃ body, Gives (operand inner tokens) body rest ∧ value = .mk false body := by
  cases tokens with
  | nil => simp [factor, operand, gives_error]
  | cons token after =>
    rw [factor, if_neg (h token rfl)]
    exact gives_bind_ok (Factor.mk false) fun _ => ⟨_, rfl⟩

end Operands

/-! ## Expressions and lines -/

/-- An expression inside a line is a sum and has no target. -/
theorem expr_gives {inner : Option (Parser Expr)} {value : Expr} :
    Gives (expr inner tokens) value rest ↔
      ∃ all, Gives (sum inner tokens) all rest ∧ value = .mk all none :=
  gives_bind_ok (fun all => Expr.mk all none) fun _ => ⟨_, rfl⟩

/-- The parser of the expressions in groups and calls, when so many levels may still be opened. -/
def innerWithin : Nat → Option (Parser Expr)
  | 0 => none
  | levels + 1 => some (exprWithin levels)

/-- Inside groups and calls one level fewer may be opened. -/
theorem exprWithin_eq (levels : Nat) : exprWithin levels = expr (innerWithin levels) := by
  cases levels <;> rfl

/-- A target is a matrix or scalar variable that is not to be defined. -/
theorem target_gives {value : VarRef} :
    Gives (target tokens) value rest ↔
      ∃ token, tokens = token :: rest ∧
        (token.kind = .matrix ∧ value = ⟨.matrix, some token.text⟩ ∨
          token.kind = .scalar ∧ value = ⟨.scalar, some token.text⟩) := by
  refine (gives_bind_ok (fun token : Token => VarRef.mk
    (if token.kind = .matrix then .matrix else .scalar) (some token.text))
    fun _ => ⟨_, rfl⟩).trans ?_
  simp only [expect_gives, List.mem_cons, List.not_mem_nil, or_false]
  constructor
  · rintro ⟨token, ⟨rfl, hkind | hkind⟩, rfl⟩
    · exact ⟨token, rfl, .inl ⟨hkind, by simp [hkind]⟩⟩
    · exact ⟨token, rfl, .inr ⟨hkind, by simp [hkind]⟩⟩
  · rintro ⟨token, rfl, ⟨hkind, rfl⟩ | ⟨hkind, rfl⟩⟩
    · exact ⟨token, ⟨rfl, .inl hkind⟩, by simp [hkind]⟩
    · exact ⟨token, ⟨rfl, .inr hkind⟩, by simp [hkind]⟩

/-- What may stand behind the expression of a line: nothing, or an arrow and a target. -/
def LineEnd (body : Expr) (left : List Token) (value : Expr) : Prop :=
  (left = [] ∧ value = body) ∨
    ∃ arrow after ref, left = arrow :: after ∧ arrow.kind = .arrow ∧ Gives (target after) ref [] ∧
      value = .mk body.sum (some ref)

/-- A line ends where no token is left. -/
theorem finish_eq_ok_iff {body value : Expr} :
    finish body tokens = .ok value ↔ tokens = [] ∧ value = body := by
  cases tokens <;> simp [finish, eq_comm]

/-- Behind an arrow there is one target, and the line ends there. -/
theorem target_bind_finish_eq_ok_iff {sum : Sum} {value : Expr} :
    (target tokens >>= fun named => finish (.mk sum (some named.value)) named.rest) = .ok value ↔
      ∃ ref, Gives (target tokens) ref [] ∧ value = .mk sum (some ref) := by
  cases htarget : target tokens with
  | error refusal =>
    constructor
    · intro h
      cases h
    · rintro ⟨ref, h, -⟩
      exact absurd h gives_error
  | ok named =>
    simp only [gives_ok]
    refine finish_eq_ok_iff.trans ?_
    constructor
    · rintro ⟨hrest, hvalue⟩
      exact ⟨named.value, ⟨rfl, hrest⟩, hvalue⟩
    · rintro ⟨ref, ⟨rfl, hrest⟩, hvalue⟩
      exact ⟨hrest, hvalue⟩

/-- A line is read by reading an expression and then what may stand behind it. -/
theorem line_eq_ok_iff {value : Expr} :
    line tokens = .ok value ↔
      ∃ body left, Gives (exprWithin nestingLimit tokens) body left ∧ LineEnd body left value := by
  unfold line
  cases hbody : exprWithin nestingLimit tokens with
  | error refusal =>
    constructor
    · intro h
      cases h
    · rintro ⟨_, _, h, -⟩
      exact absurd h gives_error
  | ok parsed =>
    obtain ⟨body, left, shorter⟩ := parsed
    have hunique : (∃ body' left', Gives (.ok ⟨body, left, shorter⟩) body' left' ∧
        LineEnd body' left' value) ↔ LineEnd body left value := by
      simp only [gives_ok]
      constructor
      · rintro ⟨_, _, ⟨rfl, rfl⟩, h⟩
        exact h
      · intro h
        exact ⟨body, left, ⟨rfl, rfl⟩, h⟩
    rw [hunique]
    cases left with
    | nil =>
      simp only [bind, Except.bind, LineEnd, reduceCtorEq, false_and, exists_false,
        or_false, true_and, Except.ok.injEq, eq_comm]
    | cons token after =>
      by_cases harrow : token.kind = .arrow
      · simp only [bind, Except.bind, harrow, if_true]
        refine target_bind_finish_eq_ok_iff.trans ?_
        constructor
        · rintro ⟨ref, href, hvalue⟩
          exact .inr ⟨token, after, ref, rfl, harrow, href, hvalue⟩
        · rintro (⟨h, -⟩ | ⟨_, _, ref, h, -, href, hvalue⟩)
          · cases h
          · cases h
            exact ⟨ref, href, hvalue⟩
      · simp only [bind, Except.bind, harrow, if_false, finish]
        constructor
        · intro h
          cases h
        · rintro (⟨h, -⟩ | ⟨_, _, _, h, hkind, -⟩)
          · cases h
          · cases h
            exact absurd hkind harrow

end MatrixCalc.Parser
