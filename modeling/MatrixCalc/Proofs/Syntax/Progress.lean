import MatrixCalc.Proofs.Syntax.Following
import MatrixCalc.Proofs.Syntax.Refusal

/-!
# Parsing makes progress

The parser that moves a cursor comes to an end on all tokens, and with the tree or failure of the
plain parser (`exists_parse_eq`): no loop goes round more often, and no call is deeper, than there
are tokens. A call that returns has taken a token and closed what it opened, and the cursor is
inside the tokens all the time (`MakesProgress`). What stands behind the end of the input is never
looked at. The whole is `parse_makes_progress`.
-/

namespace MatrixCalc.Cursor

open MatrixCalc.Token (completed completed_eq completed_eq_append completed_append_singleton
  completed_eq_append_singleton)

/-! ## Lines -/

section Lines

variable {α : Type} {tokens : List Token} {source : Option String} {stop : Token}
  {behind ahead rest : List Token} {depth depth' : Nat} {trail after : Trail}

/-- The walk comes to an end inside the tokens, with the result of a parser. -/
def Concludes (tokens : List Token) (source : Option String) (stop : Token) (walk : Walk α)
    (trail : Trail) (result : Except Refusal α) : Prop :=
  ∃ after, walk trail = some (result.mapError fun refusal =>
      .refused (Expr.failureOf source stop.pos refusal), after) ∧
    after.Inside tokens

/-- What is ahead later on is what is left of the tokens that were ahead before. -/
theorem At.suffix (h : At tokens stop behind ahead depth trail)
    (h' : At tokens stop behind rest depth' after) (hle : rest.length ≤ ahead.length) :
    rest <:+ ahead := by
  have hlength := h.length_eq
  have hlength' := h'.length_eq
  have hposition : after.here.position = trail.here.position + (ahead.length - rest.length) := by
    omega
  have hdrop := h'.drop_eq
  rw [hposition, ← List.drop_drop, h.drop_eq,
    List.drop_append_of_le_length (Nat.sub_le _ _)] at hdrop
  exact ⟨_, (List.append_cancel_right hdrop) ▸ List.take_append_drop _ _⟩

/-- The end of the input is taken, whether or not there is anything behind it. -/
theorem At.advance_end (h : At tokens stop behind [] depth trail) :
    ∃ after, advance tokens trail = some (.ok stop, after) ∧ after.Inside tokens := by
  have hadvance : advance tokens trail = some (.ok stop,
      if trail.here.position < tokens.length - 1 then
        trail.move ⟨trail.here.position + 1, trail.here.depth⟩
      else trail) := bind_of_ok h.current_eq
  refine ⟨_, hadvance, ?_⟩
  split
  · next hlt => exact h.inside.move ⟨by dsimp only; omega, h.inside.here.depth_le⟩
  · exact h.inside

/-- Where the line may end, the end of the input is needed. -/
theorem At.concludes_finish (h : At tokens stop behind ahead depth trail)
    (hends : ∀ token ∈ ahead, token.kind ≠ .endOfInput) (value : Expr) :
    Concludes tokens source stop (do
      let _ ← expect tokens source [.endOfInput]
      pure value) trail (Parser.finish value ahead) := by
  cases ahead with
  | nil =>
    obtain ⟨after, hadvance, hafter⟩ := h.advance_end
    have hexpect : expect tokens source [.endOfInput] trail = some (.ok stop, after) := by
      refine (bind_of_ok h.current_eq).trans ?_
      rw [List.headD_nil, if_pos (List.mem_singleton.2 h.stop_kind), hadvance]
    exact ⟨after, bind_of_ok hexpect, hafter⟩
  | cons token rest =>
    have hkind : token.kind ∉ [TokenKind.endOfInput] := by
      simpa using hends token List.mem_cons_self
    have hexpect : expect tokens source [.endOfInput] trail =
        refuse source token (.unexpected [.endOfInput] (some token)) trail := by
      refine (bind_of_ok h.current_eq).trans ?_
      rw [List.headD_cons, if_neg hkind]
    exact ⟨trail, bind_of_error hexpect, h.inside⟩

/-- A walk concludes as one that it goes on as. -/
theorem Concludes.of_eq {walk walk' : Walk α} {result : Except Refusal α}
    (heq : walk trail = walk' after) (h : Concludes tokens source stop walk' after result) :
    Concludes tokens source stop walk trail result := by
  obtain ⟨last, hwalk, hlast⟩ := h
  exact ⟨last, heq.trans hwalk, hlast⟩

/-- A walk that follows a parser, and then concludes as what comes behind it. -/
theorem Concludes.bind {β : Type} {bound : Nat} {walk : Walk β} {next : β → Walk α}
    {first : Except Refusal (Parsed β bound)} {more : Parsed β bound → Except Refusal α}
    (h : Follows tokens source stop behind walk trail depth first)
    (hnext : ∀ parsed after, At tokens stop behind parsed.rest depth after →
      Concludes tokens source stop (next parsed.value) after (more parsed)) :
    Concludes tokens source stop (walk >>= next) trail (first >>= more) := by
  cases h with
  | ok hlead =>
    obtain ⟨after, hwalk, hafter⟩ := hlead
    exact .of_eq (bind_of_ok hwalk) (hnext ⟨_, _, _⟩ after hafter)
  | error hrefused hinside => exact ⟨_, bind_of_error hrefused, hinside⟩

/-- A line is read to the end of the input, or refused, as the parser does it. -/
theorem line_concludes {clock : Nat} (h : At tokens stop behind ahead 0 trail)
    (hends : ∀ token ∈ ahead, token.kind ≠ .endOfInput) (hclock : ahead.length < clock) :
    Concludes tokens source stop (line tokens source clock) trail (Parser.line ahead) := by
  refine Concludes.bind (exprWithin_follows clock nestingLimit 0 (Nat.zero_add _) h hclock)
    fun body after hafter => ?_
  have hrest : ∀ token ∈ body.rest, token.kind ≠ .endOfInput := fun token htoken =>
    hends token ((h.suffix hafter body.shorter.le).subset htoken)
  obtain ⟨value, rest, shorter⟩ := body
  by_cases harrow : (rest.headD stop).kind = .arrow
  · cases rest with
    | nil =>
      rw [List.headD_nil, h.stop_kind] at harrow
      cases harrow
    | cons token rest =>
      obtain ⟨-, hrest⟩ := List.forall_mem_cons.1 hrest
      obtain ⟨moved, haccept, hmoved⟩ := hafter.leads_accept harrow
      refine .of_eq (bind_of_ok haccept) ?_
      simp only [if_true, show token.kind = .arrow from harrow, Parser.target, bind_assoc]
      refine Concludes.bind (hmoved.follows_expect (by simp)) fun named last hlast => ?_
      refine hlast.concludes_finish (fun token htoken => hrest token ?_) _
      exact (hmoved.suffix hlast named.shorter.le).subset htoken
  · obtain ⟨moved, haccept, hmoved⟩ := hafter.leads_not_accept harrow
    refine .of_eq (bind_of_ok haccept) ?_
    cases rest with
    | nil => exact hmoved.concludes_finish hrest value
    | cons token rest =>
      simp only [show token.kind ≠ .arrow from harrow, if_false]
      exact hmoved.concludes_finish hrest value

end Lines

/-! ## Progress -/

/-- From wherever the cursor is inside the tokens, the walk comes to an end, in no more time than
there are tokens from the cursor on, and the cursor has been inside all the time. If the walk
returns, it has taken at least one token and closed all that it opened; else it was refused. -/
def MakesProgress {α : Type} (tokens : List Token) (walk : Nat → Walk α) : Prop :=
  ∀ trail : Trail, trail.Inside tokens → ∃ outcome after,
    (∀ clock, tokens.length ≤ trail.here.position + clock →
      walk clock trail = some (outcome, after)) ∧
    after.Inside tokens ∧
    match outcome with
    | .ok _ => trail.here.position < after.here.position ∧ after.here.depth = trail.here.depth
    | .error reason => ∃ failure, reason = .refused failure

/-- A walk that follows a parser at every depth makes progress, since the parser does. -/
theorem makesProgress_of_followed {α : Type} {front : List Token} {stop : Token}
    {source : Option String} {walk : Nat → Walk α} {parser : Nat → Parser α}
    (hstop : stop.kind = .endOfInput)
    (hmore : ∀ {clock clock'}, clock ≤ clock' → Extends (walk clock) (walk clock'))
    (h : ∀ {clock depth levels}, depth + levels = nestingLimit →
      IsFollowed (front ++ [stop]) source stop [] depth clock (walk clock) (parser levels)) :
    MakesProgress (front ++ [stop]) walk := by
  intro trail hinside
  have hposition := hinside.here.position_lt
  have hlevels : trail.here.depth + (nestingLimit - trail.here.depth) = nestingLimit :=
    Nat.add_sub_cancel' hinside.here.depth_le
  have hdrop : (front ++ [stop]).drop trail.here.position =
      front.drop trail.here.position ++ [stop] := by
    rw [List.length_append, List.length_singleton] at hposition
    exact List.drop_append_of_le_length (Nat.le_of_lt_succ hposition)
  have hat : At (front ++ [stop]) stop [] (front.drop trail.here.position) trail.here.depth
    trail := ⟨hstop, hdrop, rfl, hinside⟩
  have hlength := hat.length_eq
  let least := (front ++ [stop]).length - trail.here.position
  have hleast : (front.drop trail.here.position).length < least := by
    dsimp only [least]
    omega
  have hlater : ∀ {result}, walk least trail = some result → ∀ clock,
      (front ++ [stop]).length ≤ trail.here.position + clock → walk clock trail = some result :=
    fun hresult clock hclock => hmore (Nat.sub_le_iff_le_add'.2 hclock) _ _ hresult
  have hfollows := h hlevels hat hleast
  generalize parser _ (front.drop trail.here.position) = result at hfollows
  cases hfollows with
  | @ok value rest shorter hlead =>
    obtain ⟨after, hwalk, hafter⟩ := hlead
    have hlength' := hafter.length_eq
    exact ⟨.ok value, after, hlater hwalk, hafter.inside, by omega, hafter.depth_eq⟩
  | error hrefused hinside' => exact ⟨_, _, hlater hrefused, hinside', _, rfl⟩

/-- Every call that reads an expression or a part of one makes progress. -/
structure CallsProgress (tokens : List Token) (source : Option String) : Prop where
  expr : MakesProgress tokens (expr tokens source)
  term : MakesProgress tokens fun clock =>
    term tokens source (Cursor.expr tokens source clock) clock
  factor : MakesProgress tokens fun clock =>
    factor tokens source (Cursor.expr tokens source clock) clock
  operand : MakesProgress tokens fun clock =>
    operand tokens source (Cursor.expr tokens source clock) clock

/-- On tokens that end with the end of the input every call makes progress. -/
theorem callsProgress {tokens front : List Token} {stop : Token} {source : Option String}
    (htokens : tokens = front ++ [stop]) (hstop : stop.kind = .endOfInput) :
    CallsProgress tokens source := by
  subst htokens
  have hinner : ∀ {clock depth levels}, depth + levels = nestingLimit →
      InnerFollowed (front ++ [stop]) source stop [] depth levels clock
        (expr (front ++ [stop]) source clock) := by
    intro clock depth levels hlevels levels' h
    exact exprWithin_follows clock levels' (depth + 1) (by omega)
  exact {
    expr := makesProgress_of_followed hstop expr_extends (exprWithin_follows _ _ _)
    term := makesProgress_of_followed hstop (fun hle => term_extends (expr_extends hle) hle)
      fun h => IsFollowed.of_le (term_follows h (hinner h)) (Nat.le_succ _)
    factor := makesProgress_of_followed hstop (fun hle => factor_extends (expr_extends hle) hle)
      fun h => IsFollowed.of_le (factor_follows h (hinner h)) (Nat.le_succ _)
    operand := makesProgress_of_followed hstop (fun hle => operand_extends (expr_extends hle) hle)
      fun h => IsFollowed.of_le (operand_follows h (hinner h)) (Nat.le_succ _) }

/-- In as much time as there are tokens, the parser that moves a cursor comes to an end inside of
them, with the tree or the failure of the plain parser. -/
theorem exists_parse_eq (tokens : List Token) (source : Option String) :
    ∃ after, (∀ clock, (completed tokens).length ≤ clock → parse clock tokens source =
        some ((Expr.ofTokens tokens source).mapError .refused, after)) ∧
      after.Inside (completed tokens) := by
  obtain ⟨stop, behind, hcompleted, hkind, hpos⟩ := completed_eq tokens
  have hlength : (Token.beforeEnd tokens).length < (completed tokens).length := by
    simp only [hcompleted, List.length_append, List.length_cons]
    omega
  have hstart : At (completed tokens) stop behind (Token.beforeEnd tokens) 0 ⟨⟨0, 0⟩, []⟩ :=
    ⟨hkind, hcompleted, rfl, ⟨Nat.zero_lt_of_lt hlength, Nat.zero_le _⟩, nofun⟩
  have hconcludes : Concludes (completed tokens) source stop
      (line (completed tokens) source (completed tokens).length) ⟨⟨0, 0⟩, []⟩
        (Parser.line (Token.beforeEnd tokens)) :=
    line_concludes hstart (fun _ => Token.kind_ne_of_mem_beforeEnd) hlength
  obtain ⟨after, hline, hafter⟩ := hconcludes
  refine ⟨after, fun clock hclock => (line_extends hclock _ _ hline).trans ?_, hafter⟩
  rw [Expr.ofTokens, ← Token.beforeEnd, hpos]
  cases Parser.line (Token.beforeEnd tokens) <;> rfl

/-- For all tokens, a parser that looks them up by position comes to an end, never looks outside
of them, has no more groups and calls open than may be at any time, and comes to the tree or
failure of the plain parser. Each of its calls that returns has taken a token and closed what it
opened. Tokens behind the end of the input do not matter. -/
theorem parse_makes_progress (tokens : List Token) (source : Option String) :
    (∃ after, (∀ clock, (completed tokens).length ≤ clock → parse clock tokens source =
        some ((Expr.ofTokens tokens source).mapError .refused, after)) ∧
      after.Inside (completed tokens)) ∧
    CallsProgress (completed tokens) source ∧
    ∀ (front behind : List Token) (stop : Token), stop.kind = .endOfInput →
      tokens = front ++ stop :: behind →
        Expr.ofTokens tokens source = Expr.ofTokens (front ++ [stop]) source ∧
        ∀ clock, (completed tokens).length ≤ clock → (parse clock tokens source).map Prod.fst =
          (parse clock (front ++ [stop]) source).map Prod.fst := by
  obtain ⟨front, stop, hcompleted, hstop⟩ := completed_eq_append_singleton tokens
  refine ⟨exists_parse_eq tokens source, callsProgress hcompleted hstop, ?_⟩
  rintro front behind stop hstop rfl
  have hsame := Expr.ofTokens_append_cons front behind hstop source
  obtain ⟨after, hparse, -⟩ := exists_parse_eq (front ++ stop :: behind) source
  obtain ⟨after', hparse', -⟩ := exists_parse_eq (front ++ [stop]) source
  refine ⟨hsame, fun clock hclock => ?_⟩
  have hclock' : (completed (front ++ [stop])).length ≤ clock := by
    obtain ⟨extra, hextra⟩ := completed_eq_append (front ++ stop :: behind)
    rw [hextra] at hclock
    rw [completed_append_singleton front hstop]
    simp only [List.length_append, List.length_cons, List.length_nil] at hclock ⊢
    omega
  rw [hparse clock hclock, hparse' clock hclock', hsame]
  rfl

/-- The tokens of `-(x)`, the end of the input, and a plus sign behind it. -/
theorem parse_makes_progress_negated :
    let tokens : List Token :=
      [⟨.minus, "-", 0⟩, ⟨.leftParen, "(", 1⟩, ⟨.scalar, "x", 2⟩, ⟨.rightParen, ")", 3⟩,
        ⟨.endOfInput, "", 4⟩, ⟨.plus, "+", 4⟩]
    let inside := Expr.mk (.term (.factor (.mk false (.variable ⟨.scalar, some "x"⟩)))) none
    let tree := Expr.mk (.term (.factor (.mk true (.group inside)))) none
    (∃ after, parse 7 tokens none = some (.ok tree, after) ∧ after.Inside (completed tokens)) ∧
      Expr.ofTokens (tokens.take 5) none = .ok tree := by
  intro tokens inside tree
  obtain ⟨⟨after, hparse, hafter⟩, -, hdrop⟩ := parse_makes_progress tokens none
  have htree : Expr.ofTokens tokens none = .ok tree := by cbv
  obtain ⟨hsame, -⟩ := hdrop (tokens.take 4) [⟨.plus, "+", 4⟩] ⟨.endOfInput, "", 4⟩ rfl rfl
  rw [htree] at hparse hsame
  exact ⟨⟨after, hparse 7 (by decide), hafter⟩, hsame.symm⟩

end MatrixCalc.Cursor
