import MatrixCalc.Proofs.Syntax.Ending

/-!
# Parsing with a cursor

The grammar once more, read by a parser that moves a cursor along a list of tokens which ends with
a token for the end of the input. The cursor counts the groups and calls that are open. It never
moves off the last token, so that nothing in its form says that a run comes to an end. A run is
therefore given a clock, which bounds how often each loop goes round and how deep calls go, and
`none` stands for a run that its clock has stopped. A run keeps the trail of all the places where
its cursor has been, also where it is refused.

The lemmas say where one step leads from a cursor at some tokens (`At`), and that a run which has
come to an end does the same in more time (`Extends`).
-/

namespace MatrixCalc

/-- A place in a list of tokens, and how many groups and calls are open there. -/
structure Cursor where
  position : Nat
  depth : Nat
  deriving DecidableEq, Repr

namespace Cursor

/-- What ends a run early: a look-up at a position where there is no token, or a refusal. -/
inductive Stop where
  | outside (position : Nat)
  | refused (failure : Failure)
  deriving DecidableEq, Repr

/-- Where a run is, and where it has been, with the latest place first. -/
structure Trail where
  here : Cursor
  past : List Cursor
  deriving DecidableEq, Repr

/-- The trail after a move of the cursor. -/
def Trail.move (trail : Trail) (next : Cursor) : Trail :=
  ⟨next, trail.here :: trail.past⟩

/-- A parser that moves a cursor. -/
abbrev Walk := ExceptT Stop (StateT Trail Option)

section Grammar

variable (tokens : List Token) (source : Option String)

/-- The token at the cursor. -/
def current : Walk Token := do
  let trail ← get
  match tokens[trail.here.position]? with
  | some token => pure token
  | none => throw (.outside trail.here.position)

/-- Takes the token at the cursor. The cursor stays at the last token. -/
def advance : Walk Token := do
  let token ← current tokens
  modify fun trail =>
    if trail.here.position < tokens.length - 1 then
      trail.move ⟨trail.here.position + 1, trail.here.depth⟩
    else trail
  pure token

/-- Stops at a token. -/
def refuse {α : Type} (token : Token) (refusal : Refusal) : Walk α :=
  throw (.refused (Expr.failureOf source token.pos refusal))

/-- Takes a token of one of the given kinds. -/
def expect (kinds : List TokenKind) : Walk Token := do
  let token ← current tokens
  if token.kind ∈ kinds then advance tokens
  else refuse source token (.unexpected kinds (some token))

/-- Takes a token if it is of the given kind. -/
def accept (kind : TokenKind) : Walk Bool := do
  let token ← current tokens
  if token.kind = kind then
    let _ ← advance tokens
    pure true
  else pure false

/-- Opens a group or call. -/
def enter : Walk Unit := do
  let trail ← get
  if nestingLimit ≤ trail.here.depth then
    let token ← current tokens
    refuse source token (.tooDeep token)
  else set (trail.move ⟨trail.here.position, trail.here.depth + 1⟩)

/-- Closes a group or call. -/
def leave : Walk Unit :=
  modify fun trail => trail.move ⟨trail.here.position, trail.here.depth - 1⟩

/-- What a token means, if it means anything. -/
def meaning {α : Type} (token : Token) : Except Refusal α → Walk α
  | .ok value => pure value
  | .error refusal => refuse source token refusal

/-- The end of a run that its clock has stopped. -/
def late {α : Type} : Walk α := fun _ => none

/-- Reads operators with an item behind each. -/
def joined {α β ω : Type} (operator? : TokenKind → Option ω) (item : Walk α)
    (join : β → ω → α → β) : Nat → β → Walk β
  | 0, _ => late
  | clock + 1, before => do
      let token ← current tokens
      match operator? token.kind with
      | none => pure before
      | some operator => do
          let _ ← advance tokens
          let next ← item
          joined operator? item join clock (join before operator next)

section Inner

variable (inner : Walk Expr)

/-- Reads the arguments after the first, each behind a comma. -/
def moreArguments : Nat → Walk Arguments
  | 0 => late
  | clock + 1 => do
      if ← accept tokens .comma then
        let next ← inner
        let more ← moreArguments clock
        pure (.cons next more)
      else pure .nil

/-- Reads a call. -/
def call (clock : Nat) : Walk Operand := do
  enter tokens source
  let name ← expect tokens source [.function]
  let _ ← expect tokens source [.leftParen]
  let first ← inner
  let more ← moreArguments tokens inner clock
  let _ ← expect tokens source [.rightParen]
  leave
  pure (.call name.text (.cons first more))

/-- Reads a group. -/
def group : Walk Operand := do
  enter tokens source
  let _ ← advance tokens
  let inside ← inner
  let _ ← expect tokens source [.rightParen]
  leave
  pure (.group inside)

/-- Reads an operand. -/
def operand (clock : Nat) : Walk Operand := do
  let token ← current tokens
  match token.kind with
  | .number => do
      let _ ← advance tokens
      meaning source token (Parser.numberOperand token.text)
  | .function => call tokens source inner clock
  | .leftParen => group tokens source inner
  | kind =>
      match Parser.refKind? kind with
      | some ref => do
          let _ ← advance tokens
          meaning source token (Parser.variableOperand ref token.text)
      | none => refuse source token (.unexpected Parser.operandStarts (some token))

/-- Reads a factor. -/
def factor (clock : Nat) : Walk Factor := do
  let negated ← accept tokens .minus
  let body ← operand tokens source inner clock
  pure (.mk negated body)

/-- Reads a term. -/
def term (clock : Nat) : Walk Term := do
  let factor := factor tokens source inner clock
  let first ← factor
  joined tokens Parser.mulOp? factor .join clock (.factor first)

/-- Reads the terms of an expression. -/
def sum (clock : Nat) : Walk Sum := do
  let term := term tokens source inner clock
  let first ← term
  joined tokens Parser.addOp? term .join clock (.term first)

end Inner

/-- Reads an expression without a target. The expressions inside of groups and calls have less
time. -/
def expr : Nat → Walk Expr
  | 0 => late
  | clock + 1 => do
      let all ← sum tokens source (expr clock) clock
      pure (.mk all none)

/-- Reads a whole line. -/
def line (clock : Nat) : Walk Expr := do
  let body ← expr tokens source clock
  if ← accept tokens .arrow then
    let named ← expect tokens source [.matrix, .scalar]
    let kind := if named.kind = .matrix then RefKind.matrix else .scalar
    let _ ← expect tokens source [.endOfInput]
    pure (.mk body.sum (some ⟨kind, some named.text⟩))
  else
    let _ ← expect tokens source [.endOfInput]
    pure body

end Grammar

/-- Parses tokens from the first one on. -/
def parse (clock : Nat) (tokens : List Token) (source : Option String) :
    Option (Except Stop Expr × Trail) :=
  line (Token.completed tokens) source clock ⟨⟨0, 0⟩, []⟩

/-! ## Where a step leads -/

/-- A cursor at one of the tokens, with no more groups and calls open than may be. -/
structure Inside (tokens : List Token) (cursor : Cursor) : Prop where
  position_lt : cursor.position < tokens.length
  depth_le : cursor.depth ≤ nestingLimit

/-- The cursor is inside and has always been. -/
structure Trail.Inside (tokens : List Token) (trail : Trail) : Prop where
  here : trail.here.Inside tokens
  past : ∀ cursor ∈ trail.past, cursor.Inside tokens

/-- A trail stays inside the tokens if the cursor moves inside them. -/
theorem Trail.Inside.move {tokens : List Token} {trail : Trail} (h : trail.Inside tokens)
    {next : Cursor} (hnext : next.Inside tokens) : (trail.move next).Inside tokens :=
  ⟨hnext, List.forall_mem_cons.2 ⟨h.here, h.past⟩⟩

/-- The cursor of a trail is at the tokens `ahead`. Behind these are an end of the input and then
`behind`, and `depth` groups and calls are open. -/
structure At (tokens : List Token) (stop : Token) (behind ahead : List Token) (depth : Nat)
    (trail : Trail) : Prop where
  stop_kind : stop.kind = .endOfInput
  drop_eq : tokens.drop trail.here.position = ahead ++ stop :: behind
  depth_eq : trail.here.depth = depth
  inside : trail.Inside tokens

section Steps

variable {α β : Type} {tokens : List Token} {source : Option String} {stop token : Token}
  {behind ahead rest : List Token} {depth : Nat} {trail after : Trail} {walk : Walk α}
  {next : α → Walk β}

/-- The walk returns a value, and the cursor is then at the tokens `ahead`. -/
def Leads (tokens : List Token) (stop : Token) (behind : List Token) (walk : Walk α)
    (trail : Trail) (value : α) (ahead : List Token) (depth : Nat) : Prop :=
  ∃ after, walk trail = some (.ok value, after) ∧ At tokens stop behind ahead depth after

/-- After a first walk that has succeeded, the second goes on from where it has ended. -/
theorem bind_of_ok {value : α} (h : walk trail = some (.ok value, after)) :
    (walk >>= next) trail = next value after := by
  simp only [bind, ExceptT.bind, ExceptT.mk, StateT.bind, h, Option.bind_some, ExceptT.bindCont]

/-- After a first walk that has stopped, there is no second. -/
theorem bind_of_error {reason : Stop} (h : walk trail = some (.error reason, after)) :
    (walk >>= next) trail = some (.error reason, after) := by
  simp only [bind, ExceptT.bind, ExceptT.mk, StateT.bind, h, Option.bind_some, ExceptT.bindCont]
  rfl

/-- The position, what lies ahead and what lies behind the end make up all tokens. -/
theorem At.length_eq (h : At tokens stop behind ahead depth trail) :
    tokens.length = trail.here.position + ahead.length + 1 + behind.length := by
  have hlength := congrArg List.length h.drop_eq
  have hposition := h.inside.here.position_lt
  simp only [List.length_drop, List.length_append, List.length_cons] at hlength
  omega

/-- A move to a place with other tokens ahead, or with more or fewer groups and calls open. -/
theorem At.move (h : At tokens stop behind ahead depth trail) {position depth' : Nat}
    (hdrop : tokens.drop position = rest ++ stop :: behind) (hdepth : depth' ≤ nestingLimit) :
    At tokens stop behind rest depth' (trail.move ⟨position, depth'⟩) where
  stop_kind := h.stop_kind
  drop_eq := hdrop
  depth_eq := rfl
  inside := by
    refine h.inside.move ⟨Nat.lt_of_not_le fun hle => ?_, hdepth⟩
    rw [List.drop_eq_nil_of_le hle] at hdrop
    exact List.append_ne_nil_of_right_ne_nil rest (List.cons_ne_nil stop behind) hdrop.symm

/-- The token at the cursor is the first one ahead, or else `stop`. -/
theorem At.current_eq (h : At tokens stop behind ahead depth trail) :
    current tokens trail = some (.ok (ahead.headD stop), trail) := by
  have hlook : tokens[trail.here.position]? = some (ahead.headD stop) := by
    rw [← List.head?_drop, h.drop_eq]
    cases ahead <;> rfl
  have hcurrent : current tokens trail =
      (match tokens[trail.here.position]? with
      | some token => pure token
      | none => throw (.outside trail.here.position) : Walk Token) trail := rfl
  rw [hcurrent, hlook]
  rfl

/-- `advance` takes the next token. -/
theorem At.leads_advance (h : At tokens stop behind (token :: rest) depth trail) :
    Leads tokens stop behind (advance tokens) trail token rest depth := by
  have hlength := h.length_eq
  have hbefore : trail.here.position < tokens.length - 1 := by
    rw [List.length_cons] at hlength
    omega
  have hdrop : tokens.drop (trail.here.position + 1) = rest ++ stop :: behind := by
    rw [← List.tail_drop, h.drop_eq]
    rfl
  have hmoved : At tokens stop behind rest depth
      (trail.move ⟨trail.here.position + 1, trail.here.depth⟩) :=
    h.depth_eq ▸ h.move hdrop h.inside.here.depth_le
  refine ⟨_, (bind_of_ok h.current_eq).trans ?_, hmoved⟩
  show some (Except.ok token, ite _ _ _) = _
  rw [if_pos hbefore]

/-- `expect` takes the next token if this is of one of the kinds. -/
theorem At.leads_expect {kinds : List TokenKind}
    (h : At tokens stop behind (token :: rest) depth trail)
    (hkind : token.kind ∈ kinds) :
    Leads tokens stop behind (expect tokens source kinds) trail token rest depth := by
  obtain ⟨after, hadvance, hafter⟩ := h.leads_advance
  refine ⟨after, (bind_of_ok h.current_eq).trans ?_, hafter⟩
  rw [List.headD_cons, if_pos hkind, hadvance]

/-- `accept` takes the next token if this is of the kind. -/
theorem At.leads_accept {kind : TokenKind} (h : At tokens stop behind (token :: rest) depth trail)
    (hkind : token.kind = kind) :
    Leads tokens stop behind (accept tokens kind) trail true rest depth := by
  obtain ⟨after, hadvance, hafter⟩ := h.leads_advance
  refine ⟨after, (bind_of_ok h.current_eq).trans ?_, hafter⟩
  rw [List.headD_cons, if_pos hkind, bind_of_ok hadvance]
  rfl

/-- A token of another kind is left where it is. -/
theorem At.leads_not_accept {kind : TokenKind} (h : At tokens stop behind ahead depth trail)
    (hkind : (ahead.headD stop).kind ≠ kind) :
    Leads tokens stop behind (accept tokens kind) trail false ahead depth := by
  refine ⟨trail, (bind_of_ok h.current_eq).trans ?_, h⟩
  rw [if_neg hkind]
  rfl

/-- `enter` goes one level deeper, if one more may be opened. -/
theorem At.leads_enter (h : At tokens stop behind ahead depth trail)
    (hdepth : depth < nestingLimit) :
    Leads tokens stop behind (enter tokens source) trail () ahead (depth + 1) := by
  have hhere := h.depth_eq
  refine ⟨trail.move ⟨trail.here.position, trail.here.depth + 1⟩, ?_, ?_⟩
  · show (if nestingLimit ≤ trail.here.depth then _ else _ : Walk Unit) trail = _
    rw [if_neg (by omega)]
    rfl
  · rw [hhere]
    exact h.move h.drop_eq hdepth

/-- Nothing is opened beyond the limit. -/
theorem At.enter_eq_error (h : At tokens stop behind ahead nestingLimit trail) :
    enter tokens source trail =
      some (.error (.refused (Expr.failureOf source (ahead.headD stop).pos
        (.tooDeep (ahead.headD stop)))), trail) := by
  show (if nestingLimit ≤ trail.here.depth then _ else _ : Walk Unit) trail = _
  rw [if_pos (Nat.le_of_eq h.depth_eq.symm), bind_of_ok h.current_eq]
  rfl

/-- `leave` goes back by one level. -/
theorem At.leads_leave (h : At tokens stop behind ahead (depth + 1) trail) :
    Leads tokens stop behind leave trail () ahead depth := by
  have hlimit := h.inside.here.depth_le
  have hhere := h.depth_eq
  refine ⟨trail.move ⟨trail.here.position, trail.here.depth - 1⟩, rfl, ?_⟩
  rw [hhere]
  exact h.move h.drop_eq (by omega)

end Steps

/-! ## More time -/

/-- What the one walk comes to, the other one comes to as well. -/
def Extends {α : Type} (walk longer : Walk α) : Prop :=
  ∀ trail result, walk trail = some result → longer trail = some result

section Time

variable {α β ω : Type} {tokens : List Token} {source : Option String}

/-- A walk extends itself. -/
theorem Extends.refl (walk : Walk α) : Extends walk walk := fun _ _ h => h

/-- Every walk extends one that its clock has stopped. -/
theorem Extends.late (walk : Walk α) : Extends late walk := by
  intro trail result hresult
  cases hresult

/-- Two walks in a row extend two walks in a row if each extends the other. -/
theorem Extends.bind {walk longer : Walk α} {next next' : α → Walk β} (h : Extends walk longer)
    (hnext : ∀ value, Extends (next value) (next' value)) :
    Extends (walk >>= next) (longer >>= next') := by
  intro trail result hresult
  cases hwalk : walk trail with
  | none =>
    simp only [Bind.bind, ExceptT.bind, ExceptT.mk, StateT.bind, hwalk] at hresult
    cases hresult
  | some reached =>
    obtain ⟨_ | value, after⟩ := reached
    · rw [bind_of_error hwalk] at hresult
      rw [bind_of_error (h _ _ hwalk)]
      exact hresult
    · rw [bind_of_ok hwalk] at hresult
      rw [bind_of_ok (h _ _ hwalk)]
      exact hnext value _ _ hresult

/-- After a step that takes no time. -/
theorem Extends.after {walk : Walk α} {next next' : α → Walk β}
    (hnext : ∀ value, Extends (next value) (next' value)) :
    Extends (walk >>= next) (walk >>= next') :=
  (Extends.refl walk).bind hnext

/-- More time for a chain, and items with more time, extend it. -/
theorem joined_extends {operator? : TokenKind → Option ω} {join : β → ω → α → β}
    {item item' : Walk α} (hitem : Extends item item') {clock clock' : Nat}
    (hle : clock ≤ clock') (before : β) :
    Extends (joined tokens operator? item join clock before)
      (joined tokens operator? item' join clock' before) := by
  induction clock generalizing clock' before with
  | zero => exact .late _
  | succ clock ih =>
    obtain _ | clock' := clock'
    · exact absurd hle (Nat.not_succ_le_zero _)
    · refine .after fun token => ?_
      cases operator? token.kind with
      | none => exact .refl _
      | some operator =>
        exact .after fun _ => hitem.bind fun next => ih (Nat.le_of_succ_le_succ hle) _

section Inner

variable {inner inner' : Walk Expr} {clock clock' : Nat}

/-- More time extends the reading of further arguments. -/
theorem moreArguments_extends (hinner : Extends inner inner') (hle : clock ≤ clock') :
    Extends (moreArguments tokens inner clock) (moreArguments tokens inner' clock') := by
  induction clock generalizing clock' with
  | zero => exact .late _
  | succ clock ih =>
    obtain _ | clock' := clock'
    · exact absurd hle (Nat.not_succ_le_zero _)
    · rw [moreArguments, moreArguments]
      refine .after fun taken => ?_
      cases taken with
      | false => exact .refl _
      | true =>
        exact hinner.bind fun next => (ih (Nat.le_of_succ_le_succ hle)).bind fun _ => .refl _

/-- More time extends the reading of a call. -/
theorem call_extends (hinner : Extends inner inner') (hle : clock ≤ clock') :
    Extends (call tokens source inner clock) (call tokens source inner' clock') := by
  refine .after fun _ => .after fun name => .after fun _ => hinner.bind fun first => ?_
  exact (moreArguments_extends hinner hle).bind fun more => .refl _

/-- More time extends the reading of a group. -/
theorem group_extends (hinner : Extends inner inner') :
    Extends (group tokens source inner) (group tokens source inner') :=
  .after fun _ => .after fun _ => hinner.bind fun _ => .refl _

/-- More time extends the reading of an operand. -/
theorem operand_extends (hinner : Extends inner inner') (hle : clock ≤ clock') :
    Extends (operand tokens source inner clock) (operand tokens source inner' clock') := by
  refine .after fun token => ?_
  cases token.kind with
  | function => exact call_extends hinner hle
  | leftParen => exact group_extends hinner
  | _ => exact .refl _

/-- More time extends the reading of a factor. -/
theorem factor_extends (hinner : Extends inner inner') (hle : clock ≤ clock') :
    Extends (factor tokens source inner clock) (factor tokens source inner' clock') :=
  .after fun _ => (operand_extends hinner hle).bind fun _ => .refl _

/-- More time extends the reading of a term. -/
theorem term_extends (hinner : Extends inner inner') (hle : clock ≤ clock') :
    Extends (term tokens source inner clock) (term tokens source inner' clock') :=
  (factor_extends hinner hle).bind fun _ => joined_extends (factor_extends hinner hle) hle _

/-- More time extends the reading of a sum. -/
theorem sum_extends (hinner : Extends inner inner') (hle : clock ≤ clock') :
    Extends (sum tokens source inner clock) (sum tokens source inner' clock') :=
  (term_extends hinner hle).bind fun _ => joined_extends (term_extends hinner hle) hle _

/-- An expression that is read in some time is read in the same way in more time. -/
theorem expr_extends (hle : clock ≤ clock') :
    Extends (expr tokens source clock) (expr tokens source clock') := by
  induction clock generalizing clock' with
  | zero => exact .late _
  | succ clock ih =>
    obtain _ | clock' := clock'
    · exact absurd hle (Nat.not_succ_le_zero _)
    · have hle' := Nat.le_of_succ_le_succ hle
      exact (sum_extends (ih hle') hle').bind fun _ => .refl _

/-- More time extends the reading of a line. -/
theorem line_extends (hle : clock ≤ clock') :
    Extends (line tokens source clock) (line tokens source clock') :=
  (expr_extends hle).bind fun _ => .refl _

end Inner

end Time

end Cursor

end MatrixCalc
