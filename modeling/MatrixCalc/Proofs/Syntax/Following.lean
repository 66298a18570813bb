import MatrixCalc.Proofs.Syntax.Cursor
import MatrixCalc.Proofs.Syntax.Parser

/-!
# The cursor follows the parsers

`Follows` says that a walk of the cursor comes to the end that a parser comes to, and is inside the
tokens all the time. There is one lemma for each parser (`operand_follows` and so on), from rules
for steps and for walks in a row. Loops follow by induction on the tokens ahead, and expressions in
parentheses by induction on the levels that may still be opened (`exprWithin_follows`). A parser
always comes to an end, and so the walk does as well.
-/

namespace MatrixCalc.Cursor

open MatrixCalc.Parser (innerWithin exprWithin_eq)

/-- `Follows tokens source stop behind walk trail depth result` says that a walk comes to an end
as a parser does: it returns the value, with the cursor at the tokens that are left and `depth`
groups and calls open, or it is refused for the same reason. -/
inductive Follows {α : Type} {bound : Nat} (tokens : List Token) (source : Option String)
    (stop : Token) (behind : List Token) (walk : Walk α) (trail : Trail) (depth : Nat) :
    Except Refusal (Parsed α bound) → Prop
  | ok {value : α} {rest : List Token} {shorter : rest.length < bound}
      (hlead : Leads tokens stop behind walk trail value rest depth) :
      Follows tokens source stop behind walk trail depth (.ok ⟨value, rest, shorter⟩)
  | error {refusal : Refusal} {after : Trail}
      (hrefused : walk trail =
        some (.error (.refused (Expr.failureOf source stop.pos refusal)), after))
      (hinside : after.Inside tokens) :
      Follows tokens source stop behind walk trail depth (.error refusal)

/-- From any cursor at fewer than `size` tokens, a walk follows the parser of these tokens. -/
def IsFollowed {α : Type} (tokens : List Token) (source : Option String) (stop : Token)
    (behind : List Token) (depth size : Nat) (walk : Walk α) (parser : Parser α) : Prop :=
  ∀ {ahead trail}, At tokens stop behind ahead depth trail → ahead.length < size →
    Follows tokens source stop behind walk trail depth (parser ahead)

/-- What is followed for some number of tokens is so for fewer. -/
theorem IsFollowed.of_le {α : Type} {tokens : List Token} {source : Option String} {stop : Token}
    {behind : List Token} {depth size size' : Nat} {walk : Walk α} {parser : Parser α}
    (h : IsFollowed tokens source stop behind depth size walk parser) (hle : size' ≤ size) :
    IsFollowed tokens source stop behind depth size' walk parser :=
  fun hat hsize => h hat (Nat.lt_of_lt_of_le hsize hle)

section Rules

variable {α β : Type} {tokens : List Token} {source : Option String} {stop : Token}
  {behind ahead rest : List Token} {depth depth' bound bound' : Nat} {trail after : Trail}

/-- A walk follows a result if it goes on as one that does. -/
theorem Follows.of_eq {walk walk' : Walk α} {result : Except Refusal (Parsed α bound)}
    (heq : walk trail = walk' after)
    (h : Follows tokens source stop behind walk' after depth result) :
    Follows tokens source stop behind walk trail depth result := by
  cases h with
  | ok hlead =>
    obtain ⟨last, hwalk, hlast⟩ := hlead
    exact .ok ⟨last, heq.trans hwalk, hlast⟩
  | error hrefused hinside => exact .error (heq.trans hrefused) hinside

/-- A step of the walk alone, after which the walk follows the result. -/
theorem Follows.step {walk : Walk β} {next : β → Walk α} {value : β}
    {result : Except Refusal (Parsed α bound)}
    (h : Leads tokens stop behind walk trail value ahead depth')
    (hnext : ∀ after, At tokens stop behind ahead depth' after →
      Follows tokens source stop behind (next value) after depth result) :
    Follows tokens source stop behind (walk >>= next) trail depth result := by
  obtain ⟨after, hwalk, hafter⟩ := h
  exact .of_eq (bind_of_ok hwalk) (hnext after hafter)

/-- At the end of both the value and the tokens left are the same. -/
theorem Follows.done {value : α} {shorter : rest.length < bound}
    (h : At tokens stop behind rest depth trail) :
    Follows tokens source stop behind (pure value) trail depth (.ok ⟨value, rest, shorter⟩) :=
  .ok ⟨trail, rfl, h⟩

/-- Two walks in a row follow two parsers in a row if each follows the other. -/
theorem Follows.bind {walk : Walk β} {next : β → Walk α}
    {first : Except Refusal (Parsed β bound')}
    {more : Parsed β bound' → Except Refusal (Parsed α bound)}
    (h : Follows tokens source stop behind walk trail depth' first)
    (hnext : ∀ parsed after, At tokens stop behind parsed.rest depth' after →
      Follows tokens source stop behind (next parsed.value) after depth (more parsed)) :
    Follows tokens source stop behind (walk >>= next) trail depth (first >>= more) := by
  cases h with
  | ok hlead => exact .step hlead (hnext ⟨_, _, _⟩)
  | error hrefused hinside => exact .error (bind_of_error hrefused) hinside

/-- A parser whose value is made into another one. -/
theorem Follows.map {walk : Walk β} {first : Except Refusal (Parsed β bound')}
    {more : Parsed β bound' → Except Refusal (Parsed α bound)} (make : β → α)
    (h : Follows tokens source stop behind walk trail depth first)
    (hmore : ∀ parsed, ∃ shorter, more parsed = .ok ⟨make parsed.value, parsed.rest, shorter⟩) :
    Follows tokens source stop behind (walk >>= fun value => pure (make value)) trail depth
      (first >>= more) := by
  refine h.bind fun parsed after hafter => ?_
  obtain ⟨shorter, heq⟩ := hmore parsed
  rw [heq]
  exact .done hafter

/-- A parser whose result is passed on. -/
theorem Follows.pass {walk : Walk α} {first : Except Refusal (Parsed α bound')}
    {more : Parsed α bound' → Except Refusal (Parsed α bound)}
    (h : Follows tokens source stop behind walk trail depth first)
    (hmore : ∀ parsed, ∃ shorter, more parsed = .ok ⟨parsed.value, parsed.rest, shorter⟩) :
    Follows tokens source stop behind walk trail depth (first >>= more) := by
  rw [← bind_pure walk]
  exact h.map id hmore

/-! ## Tokens -/

/-- The token at the cursor is refused; it is the end of the input if nothing is ahead. -/
theorem At.follows_unexpected (h : At tokens stop behind ahead depth trail)
    (expected : List TokenKind) :
    Follows tokens source stop behind
      (refuse source (ahead.headD stop) (.unexpected expected (some (ahead.headD stop)))) trail
      depth' (.error (.unexpected expected ahead.head?) : Except Refusal (Parsed α bound)) := by
  refine .error (congrArg (fun failure => some (Except.error (Stop.refused failure), trail)) ?_)
    h.inside
  cases ahead with
  | nil =>
    show Expr.reportAt source stop.pos (.unexpected expected stop.kind stop.pos) = _
    rw [h.stop_kind]
    rfl
  | cons => rfl

/-- `expect` on the cursor follows `expect` on the tokens. -/
theorem At.follows_expect {kinds : List TokenKind} (h : At tokens stop behind ahead depth trail)
    (hend : .endOfInput ∉ kinds) :
    Follows tokens source stop behind (expect tokens source kinds) trail depth
      (Parser.expect kinds ahead) := by
  cases ahead with
  | nil =>
    refine .of_eq (bind_of_ok h.current_eq) ?_
    rw [List.headD_nil, if_neg (h.stop_kind ▸ hend)]
    exact h.follows_unexpected kinds
  | cons token rest =>
    by_cases hkind : token.kind ∈ kinds
    · rw [Parser.expect, if_pos hkind]
      exact .ok (h.leads_expect hkind)
    · refine .of_eq (bind_of_ok h.current_eq) ?_
      rw [List.headD_cons, if_neg hkind, Parser.expect, if_neg hkind]
      exact h.follows_unexpected kinds

/-- A token that means nothing is refused for what it is written as, wherever it stands. -/
theorem At.follows_meaning {result : Except Refusal α} {token : Token}
    {shorter : rest.length < bound} (h : At tokens stop behind rest depth trail)
    (hmeaning : ∀ refusal, result = .error refusal → ∃ failure, refusal = .meaningless failure) :
    Follows tokens source stop behind (meaning source token result) trail depth
      (result >>= fun value => .ok ⟨value, rest, shorter⟩) := by
  cases result with
  | ok value => exact .done h
  | error refusal =>
    obtain ⟨failure, rfl⟩ := hmeaning refusal rfl
    exact .error rfl h.inside

/-- A number is refused for its meaning and not for its kind. -/
theorem numberOperand_meaningless {text : String} {refusal : Refusal}
    (h : Parser.numberOperand text = .error refusal) :
    ∃ failure, refusal = .meaningless failure := by
  unfold Parser.numberOperand at h
  split at h
  · cases h
  · next failure _ =>
    cases h
    exact ⟨failure, rfl⟩

/-- A variable is refused for its meaning and not for its kind. -/
theorem variableOperand_meaningless {kind : RefKind} {text : String} {refusal : Refusal}
    (h : Parser.variableOperand kind text = .error refusal) :
    ∃ failure, refusal = .meaningless failure := by
  unfold Parser.variableOperand at h
  split at h
  · cases h
  · split at h
    · cases h
    · cases h
      exact ⟨_, rfl⟩

/-! ## Loops -/

/-- A loop is not stopped by its clock if there are fewer tokens ahead than it may go round, since
every round takes some of them. -/
theorem joined_follows {ω : Type} {operator? : TokenKind → Option ω} {join : β → ω → α → β}
    {item : Walk α} {parser : Parser α} {size : Nat} (hend : operator? .endOfInput = none)
    (hitem : IsFollowed tokens source stop behind depth size item parser) {clock : Nat}
    {ahead : List Token} (before : β) (h : At tokens stop behind ahead depth trail)
    (hclock : ahead.length < clock) (hsize : ahead.length < size) :
    Follows tokens source stop behind (joined tokens operator? item join clock before) trail depth
      (Parser.joined operator? parser join before ahead) := by
  induction clock generalizing ahead trail before with
  | zero => exact absurd hclock (Nat.not_lt_zero _)
  | succ clock ih =>
    refine .of_eq (bind_of_ok h.current_eq) ?_
    cases ahead with
    | nil =>
      rw [Parser.joined, List.headD_nil, h.stop_kind, hend]
      exact .done h
    | cons token rest =>
      rw [Parser.joined, List.headD_cons]
      cases operator? token.kind with
      | none => exact .done h
      | some operator =>
        rw [List.length_cons] at hclock hsize
        refine .step h.leads_advance fun moved hmoved => ?_
        refine (hitem hmoved (by omega)).bind fun next after hafter => ?_
        have hshorter := next.shorter
        exact (ih _ hafter (by omega) (by omega)).pass fun _ => ⟨_, rfl⟩

/-- The reading of further arguments follows the parser. -/
theorem moreArguments_follows {inner : Walk Expr} {parser : Parser Expr} {size clock : Nat}
    {ahead : List Token} (hinner : IsFollowed tokens source stop behind depth size inner parser)
    (h : At tokens stop behind ahead depth trail) (hclock : ahead.length < clock)
    (hsize : ahead.length < size) :
    Follows tokens source stop behind (moreArguments tokens inner clock) trail depth
      (Parser.moreArguments parser ahead) := by
  induction clock generalizing ahead trail with
  | zero => exact absurd hclock (Nat.not_lt_zero _)
  | succ clock ih =>
    cases ahead with
    | nil =>
      have hend : ([].headD stop).kind ≠ .comma := by simp [h.stop_kind]
      rw [Parser.moreArguments]
      exact .step (h.leads_not_accept hend) fun after hafter => .done hafter
    | cons token rest =>
      rw [Parser.moreArguments]
      split
      · next hcomma =>
        rw [List.length_cons] at hclock hsize
        refine .step (h.leads_accept hcomma) fun moved hmoved => ?_
        refine (hinner hmoved (by omega)).bind fun next middle hmiddle => ?_
        have hshorter := next.shorter
        exact (ih hmiddle (by omega) (by omega)).map (Arguments.cons next.value) fun _ => ⟨_, rfl⟩
      · next hcomma => exact .step (h.leads_not_accept hcomma) fun after hafter => .done hafter

end Rules

/-! ## The grammar -/

section Grammar

variable {tokens : List Token} {source : Option String} {stop : Token} {behind : List Token}
  {depth levels clock : Nat} {inner : Walk Expr}

/-- The expressions inside groups and calls are followed one level deeper, from fewer tokens than
the clock allows. -/
abbrev InnerFollowed (tokens : List Token) (source : Option String) (stop : Token)
    (behind : List Token) (depth levels clock : Nat) (inner : Walk Expr) : Prop :=
  ∀ levels', levels = levels' + 1 →
    IsFollowed tokens source stop behind (depth + 1) clock inner (Parser.exprWithin levels')

section Nested

variable {token : Token} {rest : List Token} {trail : Trail}

/-- The reading of a call follows the parser. -/
theorem call_follows (hlevels : depth + levels = nestingLimit)
    (hinner : InnerFollowed tokens source stop behind depth levels clock inner)
    (h : At tokens stop behind (token :: rest) depth trail) (hkind : token.kind = .function)
    (hclock : rest.length < clock) :
    Follows tokens source stop behind (call tokens source inner clock) trail depth
      (Parser.operand (innerWithin levels) (token :: rest)) := by
  cases levels with
  | zero =>
    obtain rfl : depth = nestingLimit := hlevels
    simp only [innerWithin, Parser.operand, hkind]
    exact .error (bind_of_error h.enter_eq_error) h.inside
  | succ levels =>
    simp only [innerWithin, Parser.operand, hkind, Parser.arguments, bind_assoc]
    refine .step (h.leads_enter (by omega)) fun entered hentered => ?_
    refine .step (hentered.leads_expect (by simp [hkind])) fun named hnamed => ?_
    refine (hnamed.follows_expect (by simp)).bind fun opening opened hopened => ?_
    have hopening := opening.shorter
    refine (hinner levels rfl hopened (by omega)).bind fun first middle hmiddle => ?_
    have hfirst := first.shorter
    refine (moreArguments_follows (hinner levels rfl) hmiddle (by omega) (by omega)).bind
      fun more last hlast => ?_
    refine (hlast.follows_expect (by simp)).bind fun closing closed hclosed => ?_
    exact .step hclosed.leads_leave fun after hafter => .done hafter

/-- The reading of a group follows the parser. -/
theorem group_follows (hlevels : depth + levels = nestingLimit)
    (hinner : InnerFollowed tokens source stop behind depth levels clock inner)
    (h : At tokens stop behind (token :: rest) depth trail) (hkind : token.kind = .leftParen)
    (hclock : rest.length < clock) :
    Follows tokens source stop behind (group tokens source inner) trail depth
      (Parser.operand (innerWithin levels) (token :: rest)) := by
  cases levels with
  | zero =>
    obtain rfl : depth = nestingLimit := hlevels
    simp only [innerWithin, Parser.operand, hkind]
    exact .error (bind_of_error h.enter_eq_error) h.inside
  | succ levels =>
    simp only [innerWithin, Parser.operand, hkind, Parser.groupBody, bind_assoc]
    refine .step (h.leads_enter (by omega)) fun entered hentered => ?_
    refine .step hentered.leads_advance fun opened hopened => ?_
    refine (hinner levels rfl hopened hclock).bind fun body middle hmiddle => ?_
    refine (hmiddle.follows_expect (by simp)).bind fun closing closed hclosed => ?_
    exact .step hclosed.leads_leave fun after hafter => .done hafter

end Nested

/-- The reading of an operand follows the parser. -/
theorem operand_follows (hlevels : depth + levels = nestingLimit)
    (hinner : InnerFollowed tokens source stop behind depth levels clock inner) :
    IsFollowed tokens source stop behind depth (clock + 1) (operand tokens source inner clock)
      (Parser.operand (innerWithin levels)) := by
  intro ahead trail h hsize
  refine .of_eq (bind_of_ok h.current_eq) ?_
  cases ahead with
  | nil =>
    simp only [List.headD_nil, h.stop_kind, Parser.refKind?]
    exact h.follows_unexpected Parser.operandStarts
  | cons token rest =>
    have hrest : rest.length < clock := Nat.lt_of_succ_lt_succ hsize
    rw [List.headD_cons]
    cases hkind : token.kind with
    | number =>
      simp only [Parser.operand, hkind]
      exact .step h.leads_advance fun after hafter =>
        hafter.follows_meaning fun _ => numberOperand_meaningless
    | function => exact call_follows hlevels hinner h hkind hrest
    | leftParen => exact group_follows hlevels hinner h hkind hrest
    | matrix | scalar | defineMatrix | defineScalar | defineAnonymous =>
      simp only [Parser.operand, hkind, Parser.refKind?]
      exact .step h.leads_advance fun after hafter =>
        hafter.follows_meaning fun _ => variableOperand_meaningless
    | endOfInput | plus | minus | times | divide | arrow | comma | rightParen =>
      simp only [Parser.operand, hkind, Parser.refKind?]
      exact h.follows_unexpected Parser.operandStarts

/-- The reading of a factor follows the parser. -/
theorem factor_follows (hlevels : depth + levels = nestingLimit)
    (hinner : InnerFollowed tokens source stop behind depth levels clock inner) :
    IsFollowed tokens source stop behind depth (clock + 1) (factor tokens source inner clock)
      (Parser.factor (innerWithin levels)) := by
  intro ahead trail h hsize
  cases ahead with
  | nil =>
    have hend : ([].headD stop).kind ≠ .minus := by simp [h.stop_kind]
    refine .step (h.leads_not_accept hend) fun after hafter => ?_
    cases operand_follows hlevels hinner hafter hsize with
    | error hrefused hinside => exact .error (bind_of_error hrefused) hinside
  | cons token rest =>
    have hrest : rest.length < clock + 1 := Nat.lt_of_succ_lt hsize
    rw [Parser.factor]
    split
    · next hminus =>
      refine .step (h.leads_accept hminus) fun after hafter => ?_
      exact (operand_follows hlevels hinner hafter hrest).map (Factor.mk true) fun _ => ⟨_, rfl⟩
    · next hminus =>
      refine .step (h.leads_not_accept hminus) fun after hafter => ?_
      exact (operand_follows hlevels hinner hafter hsize).map (Factor.mk false) fun _ => ⟨_, rfl⟩

/-- One item, then a loop. -/
theorem chain_follows {α β ω : Type} {operator? : TokenKind → Option ω} {join : β → ω → α → β}
    {item : Walk α} {parser : Parser α} (single : α → β) (hend : operator? .endOfInput = none)
    (hitem : IsFollowed tokens source stop behind depth (clock + 1) item parser) :
    IsFollowed tokens source stop behind depth (clock + 1)
      (item >>= fun first => joined tokens operator? item join clock (single first))
      (Parser.chain operator? parser single join) := by
  intro ahead trail h hsize
  refine (hitem h hsize).bind fun first after hafter => ?_
  have hshorter := first.shorter
  exact (joined_follows hend hitem _ hafter (by omega) (by omega)).pass fun _ => ⟨_, rfl⟩

/-- The reading of a term follows the parser. -/
theorem term_follows (hlevels : depth + levels = nestingLimit)
    (hinner : InnerFollowed tokens source stop behind depth levels clock inner) :
    IsFollowed tokens source stop behind depth (clock + 1) (term tokens source inner clock)
      (Parser.term (innerWithin levels)) :=
  chain_follows Term.factor rfl (factor_follows hlevels hinner)

/-- The reading of an expression follows the parser, if it does so one level deeper. -/
theorem expr_follows (hlevels : depth + levels = nestingLimit)
    (hinner : InnerFollowed tokens source stop behind depth levels clock
      (expr tokens source clock)) :
    IsFollowed tokens source stop behind depth (clock + 1) (expr tokens source (clock + 1))
      (Parser.exprWithin levels) := by
  intro ahead trail h hsize
  have hsum : IsFollowed tokens source stop behind depth (clock + 1)
      (sum tokens source (expr tokens source clock) clock) (Parser.sum (innerWithin levels)) :=
    chain_follows Sum.term rfl (term_follows hlevels hinner)
  rw [exprWithin_eq]
  exact (hsum h hsize).map (Expr.mk · none) fun _ => ⟨_, rfl⟩

/-- An expression is followed as long as no more groups and calls are open than may be. -/
theorem exprWithin_follows (clock levels depth : Nat) (hlevels : depth + levels = nestingLimit) :
    IsFollowed tokens source stop behind depth clock (expr tokens source clock)
      (Parser.exprWithin levels) := by
  -- an expression in parentheses starts at fewer tokens, and has less time
  induction clock generalizing levels depth with
  | zero => exact fun _ hsize => absurd hsize (Nat.not_lt_zero _)
  | succ clock ih =>
    refine expr_follows hlevels fun levels' h => ?_
    exact ih levels' (depth + 1) (by omega)

end Grammar

end MatrixCalc.Cursor
