import MatrixCalc.Proofs.Failure
import MatrixCalc.Proofs.Syntax.Ending
import MatrixCalc.Proofs.Syntax.Expectation
import MatrixCalc.Proofs.Syntax.Reading

/-!
# Why a line is refused

A parser that is started where something is expected either uses up tokens that lead to where it
has to end, or it has a reason to stop (`Refusal.Earliest`): the first token that does not fit, and
then the kinds it names would have fitted there; the first group or call too deep; or a number with
more digits than the limit. `Tracks.bind` puts two parsers in a row, and `line_earliest` is the
result for lines. All but the last reason are reported to the user (`Expr.ofTokens_error`).
-/

namespace MatrixCalc

open MatrixCalc.Parser MatrixCalc.Token

/-- The kind of the first token, where no token is the end of the input. -/
def Token.headKind : List Token → TokenKind
  | [] => .endOfInput
  | token :: _ => token.kind

/-- `refusal.Earliest limit start tokens` says that the refusal is for the first token that is not
expected, for the first one to open more than the limit, or for a number that is too long. -/
inductive Refusal.Earliest (limit : Nat) (start : Expectation) (tokens : List Token) :
    Refusal → Prop
  | unexpected (used behind : List Token) {reached : Expectation} {expected : List TokenKind}
      (htokens : tokens = used ++ behind)
      (hreached : start.after (used.map Token.kind) = some reached)
      (hrefused : reached.next (headKind behind) = none) (hne : expected ≠ [])
      (hexpected : ∀ kind ∈ expected, ∃ next, reached.next kind = some next) :
      Earliest limit start tokens (.unexpected expected behind.head?)
  | tooDeep (used behind : List Token) {found : Token} {reached next : Expectation}
      (htokens : tokens = used ++ found :: behind)
      (hreached : start.after (used.map Token.kind) = some reached)
      (hopens : found.kind = .function ∨ found.kind = .leftParen)
      (hnext : reached.next found.kind = some next) (hdeep : reached.opened.length = limit) :
      Earliest limit start tokens (.tooDeep found)
  | tooLong {number : Token} (hmem : number ∈ tokens) (hkind : number.kind = .number)
      (hlong : Numeral.digitLimit < number.text.toList.length) :
      Earliest limit start tokens
        (.meaningless (.fault (.tooLongToRead number.text.toList.length)))

/-- What is earliest behind some tokens is earliest in the whole. -/
theorem Refusal.Earliest.prepend {limit : Nat} {start middle : Expectation}
    {front tokens : List Token} {refusal : Refusal} (h : refusal.Earliest limit middle tokens)
    (hfront : start.after (front.map Token.kind) = some middle) :
    refusal.Earliest limit start (front ++ tokens) := by
  cases h with
  | @unexpected used behind reached expected htokens hreached hrefused hne hexpected =>
    refine .unexpected (front ++ used) behind ?_ ?_ hrefused hne hexpected
    · rw [htokens, List.append_assoc]
    · rw [List.map_append, Expectation.after_append_of hfront, hreached]
  | @tooDeep used behind found reached next htokens hreached hopens hnext hdeep =>
    refine .tooDeep (front ++ used) behind ?_ ?_ hopens hnext hdeep
    · rw [htokens, List.append_assoc]
    · rw [List.map_append, Expectation.after_append_of hfront, hreached]
  | tooLong hmem hkind hlong => exact .tooLong (List.mem_append_right _ hmem) hkind hlong

namespace Parser

variable {α β ω : Type} {limit : Nat} {start middle last : Expectation}
  {stop stop' : List Token → Prop} {tokens : List Token}

/-- `Tracks limit start last stop tokens result` says that a parser at work on some tokens leads
from one expectation to another and stops before tokens of some form, or that its refusal is the
earliest. -/
def Tracks {bound : Nat} (limit : Nat) (start last : Expectation) (stop : List Token → Prop)
    (tokens : List Token) : Except Refusal (Parsed α bound) → Prop
  | .ok parsed => ∃ used, tokens = used ++ parsed.rest ∧
      start.after (used.map Token.kind) = some last ∧ stop parsed.rest
  | .error refusal => refusal.Earliest limit start tokens

/-- A parser tracks what is expected on all tokens that can be written for their kinds. -/
def IsTracking (limit : Nat) (start last : Expectation) (stop : List Token → Prop)
    (parser : Parser α) : Prop :=
  ∀ tokens, (∀ token ∈ tokens, token.Valid) →
    Tracks limit start last stop tokens (parser tokens)

/-- A parser that is done leaves the expectation as it is. -/
theorem Tracks.done {bound : Nat} {value : α} {shorter : tokens.length < bound}
    (hstop : stop tokens) : Tracks limit start start stop tokens (.ok ⟨value, tokens, shorter⟩) :=
  ⟨[], rfl, rfl, hstop⟩

/-- A token that fits, and then a parser. -/
theorem Tracks.cons {bound : Nat} {token : Token} {result : Except Refusal (Parsed α bound)}
    (hnext : start.next token.kind = some middle)
    (h : Tracks limit middle last stop tokens result) :
    Tracks limit start last stop (token :: tokens) result := by
  have hafter : start.after ([token].map Token.kind) = some middle := by
    rw [List.map_singleton, Expectation.after_cons, hnext]
    rfl
  cases result with
  | ok parsed =>
    obtain ⟨used, rfl, hused, hstop⟩ := h
    refine ⟨token :: used, rfl, ?_, hstop⟩
    rw [List.map_cons, Expectation.after_cons, hnext, Option.bind_some, hused]
  | error refusal => exact h.prepend hafter

/-- Two parsers in a row. -/
theorem Tracks.bind {bound bound' : Nat} {first : Except Refusal (Parsed β bound')}
    {next : Parsed β bound' → Except Refusal (Parsed α bound)}
    (h : Tracks limit start middle stop tokens first) (hvalid : ∀ token ∈ tokens, token.Valid)
    (hnext : ∀ parsed, (∀ token ∈ parsed.rest, token.Valid) → stop parsed.rest →
      Tracks limit middle last stop' parsed.rest (next parsed)) :
    Tracks limit start last stop' tokens (first >>= next) := by
  cases first with
  | error refusal => exact h
  | ok parsed =>
    obtain ⟨used, rfl, hused, hstop⟩ := h
    have hthen := hnext parsed (List.forall_mem_append.1 hvalid).2 hstop
    show Tracks limit start last stop' (used ++ parsed.rest) (next parsed)
    cases hresult : next parsed with
    | error refusal =>
      rw [hresult] at hthen
      exact hthen.prepend hused
    | ok parsed' =>
      rw [hresult] at hthen
      obtain ⟨more, hrest, hmore, hstop'⟩ := hthen
      refine ⟨used ++ more, ?_, ?_, hstop'⟩
      · rw [hrest, List.append_assoc]
      · rw [List.map_append, Expectation.after_append_of hused, hmore]

/-- Taking a token of some kinds, where only these fit. -/
theorem expect_tracks {kinds : List TokenKind} (hne : kinds ≠ []) (hend : .endOfInput ∉ kinds)
    (haccepts : ∀ kind ∈ kinds, start.next kind = some last)
    (hrefuses : headKind tokens ∉ kinds → start.next (headKind tokens) = none) :
    Tracks limit start last (fun _ => True) tokens (expect kinds tokens) := by
  have hexpected : ∀ kind ∈ kinds, ∃ next, start.next kind = some next :=
    fun kind hkind => ⟨last, haccepts kind hkind⟩
  cases tokens with
  | nil => exact .unexpected [] [] rfl rfl (hrefuses hend) hne hexpected
  | cons token rest =>
    by_cases hkind : token.kind ∈ kinds
    · rw [expect, if_pos hkind]
      exact .cons (haccepts _ hkind) (.done trivial)
    · rw [expect, if_neg hkind]
      exact .unexpected [] (token :: rest) rfl rfl (hrefuses hkind) hne hexpected

/-! ## Chains -/

variable {opened : List Opened}

/-- A chain tracks what is expected, if its items do. -/
theorem joined_tracks {operator? : TokenKind → Option ω} {item : Parser α} {join : β → ω → α → β}
    (hoperator : ∀ {kind op}, operator? kind = some op →
      Expectation.next (.operator opened) kind = some (.factor opened))
    (hitem : IsTracking limit (.factor opened) (.operator opened) stop item) :
    ∀ (before : β) (tokens : List Token), (∀ token ∈ tokens, token.Valid) → stop tokens →
      Tracks limit (.operator opened) (.operator opened)
        (fun rest => StopsAt operator? rest ∧ stop rest) tokens
        (joined operator? item join before tokens)
  | before, [], _, hstop => by
    rw [joined]
    exact .done ⟨by simp [StopsAt], hstop⟩
  | before, token :: rest, hvalid, hstop => by
    rw [joined]
    split
    · next hnone =>
      refine .done ⟨?_, hstop⟩
      rintro _ ⟨⟩
      exact hnone
    · next op hsome =>
      obtain ⟨-, hrest⟩ := List.forall_mem_cons.1 hvalid
      exact .cons (hoperator hsome) ((hitem rest hrest).bind hrest fun next hbehind hstop' =>
        (joined_tracks hoperator hitem _ next.rest hbehind hstop').bind hbehind
          fun all _ hall => .done hall)
termination_by _ tokens => tokens.length
decreasing_by
  have := next.shorter
  simp only [List.length_cons]
  omega

@[inherit_doc Parser.joined_tracks]
theorem chain_tracks {operator? : TokenKind → Option ω} {item : Parser α} {single : α → β}
    {join : β → ω → α → β}
    (hoperator : ∀ {kind op}, operator? kind = some op →
      Expectation.next (.operator opened) kind = some (.factor opened))
    (hitem : IsTracking limit (.factor opened) (.operator opened) stop item) :
    IsTracking limit (.factor opened) (.operator opened)
      (fun rest => StopsAt operator? rest ∧ stop rest) (chain operator? item single join) :=
  fun tokens hvalid => (hitem tokens hvalid).bind hvalid fun first hbehind hstop =>
    (joined_tracks hoperator hitem _ first.rest hbehind hstop).bind hbehind
      fun _ _ hall => .done hall

/-! ## Groups and calls -/

/-- Where a sum stops, no sign of sums or products follows. -/
theorem StopsSum.headKind_ne (h : StopsSum tokens) :
    headKind tokens ≠ .plus ∧ headKind tokens ≠ .minus ∧ headKind tokens ≠ .times ∧
      headKind tokens ≠ .divide := by
  cases tokens with
  | nil => simp [headKind]
  | cons token rest =>
    have hadd : addOp? token.kind = none := h.1 token rfl
    have hmul : mulOp? token.kind = none := h.2 token rfl
    rw [headKind]
    refine ⟨?_, ?_, ?_, ?_⟩
    all_goals
      intro hkind
      simp [hkind, addOp?, mulOp?] at hadd hmul

/-- Behind an expression that is enclosed, only a comma in a call and the end of what encloses it
fit. -/
theorem next_operator_eq_none {opening : Opened} (hstop : StopsSum tokens)
    (hcomma : opening = .call → headKind tokens ≠ .comma) (hclose : headKind tokens ≠ .rightParen) :
    Expectation.next (.operator (opening :: opened)) (headKind tokens) = none := by
  obtain ⟨hplus, hminus, htimes, hdivide⟩ := hstop.headKind_ne
  cases opening <;> cases hkind : headKind tokens <;> simp_all [Expectation.next,
    Expectation.behindOperand]

/-- Further arguments track what is expected inside a call. -/
theorem moreArguments_tracks {inner : Parser Expr}
    (hinner : IsTracking limit (.factor (.call :: opened)) (.operator (.call :: opened)) StopsSum
      inner) :
    ∀ tokens, (∀ token ∈ tokens, token.Valid) → StopsSum tokens →
      Tracks limit (.operator (.call :: opened)) (.operator (.call :: opened))
        (fun rest => StopsSum rest ∧ headKind rest ≠ .comma) tokens (moreArguments inner tokens)
  | [], _, hstop => by
    rw [moreArguments]
    exact .done ⟨hstop, by simp [headKind]⟩
  | token :: rest, hvalid, hstop => by
    rw [moreArguments]
    split
    · next hcomma =>
      obtain ⟨-, hrest⟩ := List.forall_mem_cons.1 hvalid
      have hnext : Expectation.next (.operator (.call :: opened)) token.kind =
          some (.factor (.call :: opened)) := by
        rw [hcomma]
        rfl
      exact .cons hnext ((hinner rest hrest).bind hrest fun next hbehind hstop' =>
        (moreArguments_tracks hinner next.rest hbehind hstop').bind hbehind
          fun more _ hmore => .done hmore)
    · next hcomma => exact .done ⟨hstop, hcomma⟩
termination_by tokens => tokens.length
decreasing_by
  have := next.shorter
  simp only [List.length_cons]
  omega

/-- The closing parenthesis behind an expression. -/
theorem closing_tracks (opening : Opened) (hstop : StopsSum tokens)
    (hcomma : opening = .call → headKind tokens ≠ .comma) :
    Tracks limit (.operator (opening :: opened)) (.operator opened) (fun _ => True) tokens
      (expect [.rightParen] tokens) := by
  refine expect_tracks (List.cons_ne_nil _ _) (by simp) ?_ fun hclose => ?_
  · rw [List.forall_mem_singleton]
    cases opening <;> rfl
  · exact next_operator_eq_none hstop hcomma (by simpa using hclose)

/-- Arguments track what is expected from the parenthesis of a call on. -/
theorem arguments_tracks {inner : Parser Expr}
    (hinner : IsTracking limit (.factor (.call :: opened)) (.operator (.call :: opened)) StopsSum
      inner) :
    IsTracking limit (.opening opened) (.operator opened) (fun _ => True) (arguments inner) := by
  intro tokens hvalid
  have hopening : Tracks limit (.opening opened) (.factor (.call :: opened)) (fun _ => True) tokens
      (expect [.leftParen] tokens) := by
    refine expect_tracks (List.cons_ne_nil _ _) (by simp) ?_ fun hkind => ?_
    · rw [List.forall_mem_singleton]
      rfl
    · exact if_neg (by simpa using hkind)
  refine hopening.bind hvalid fun opening hinside _ => ?_
  refine (hinner opening.rest hinside).bind hinside fun first hbehind hstop => ?_
  refine (moreArguments_tracks hinner first.rest hbehind hstop).bind hbehind
    fun more hlast hmore => ?_
  exact (closing_tracks .call hmore.1 fun _ => hmore.2).bind hlast fun closing _ _ => .done trivial

/-- A group tracks what is expected inside it, up to its closing parenthesis. -/
theorem groupBody_tracks {inner : Parser Expr}
    (hinner : IsTracking limit (.factor (.group :: opened)) (.operator (.group :: opened)) StopsSum
      inner) :
    IsTracking limit (.factor (.group :: opened)) (.operator opened) (fun _ => True)
      (groupBody inner) :=
  fun tokens hvalid => (hinner tokens hvalid).bind hvalid fun _ hlast hstop =>
    (closing_tracks .group hstop nofun).bind hlast fun _ _ _ => .done trivial

/-! ## Operands and factors -/

/-- A run of digits is refused only if it is too long. -/
theorem numberOperand_error {text : String} {refusal : Refusal}
    (hadmits : TokenKind.number.Admits text.toList) (h : numberOperand text = .error refusal) :
    Numeral.digitLimit < text.toList.length ∧
      refusal = .meaningless (.fault (.tooLongToRead text.toList.length)) := by
  by_cases hlength : text.toList.length ≤ Numeral.digitLimit
  · rw [(numberOperand_eq_ok_iff hadmits).2 ⟨hlength, rfl⟩] at h
    cases h
  · have hne : text ≠ "" := by
      rintro rfl
      exact hadmits.1 rfl
    rw [numberOperand, Numeral.read_of_isNumeral hne hadmits.2, Numeral.readDigits,
      if_neg hlength] at h
    cases h
    exact ⟨Nat.lt_of_not_le hlength, rfl⟩

/-- Each of the kinds that an operand starts with is expected there. -/
theorem next_operand_of_mem (opened : List Opened) {kind : TokenKind} (h : kind ∈ operandStarts) :
    ∃ next, Expectation.next (.operand opened) kind = some next := by
  simp only [operandStarts, List.mem_cons, List.not_mem_nil, or_false] at h
  rcases h with rfl | rfl | rfl | rfl | rfl | rfl | rfl | rfl <;> exact ⟨_, rfl⟩

variable {levels : Nat}

/-- The parser of what is inside groups and calls tracks what is expected there. -/
abbrev InnerTracks (limit levels : Nat) (opened : List Opened) : Prop :=
  ∀ levels', levels = levels' + 1 → ∀ opening : Opened,
    IsTracking limit (.factor (opening :: opened)) (.operator (opening :: opened)) StopsSum
      (exprWithin levels')

/-- Where a factor without a minus sign or an operand comes next, an operand is expected. -/
theorem operand_expected
    (hstart : start = .operand opened ∨ start = .factor opened ∧ headKind tokens ≠ .minus) :
    start.opened = opened ∧
      start.next (headKind tokens) = Expectation.insideOperand opened (headKind tokens) ∧
      ∀ kind ∈ operandStarts, ∃ next, start.next kind = some next := by
  rcases hstart with rfl | ⟨rfl, hminus⟩
  · exact ⟨rfl, rfl, fun kind => next_operand_of_mem opened⟩
  · refine ⟨rfl, if_neg hminus, fun kind hkind => ?_⟩
    obtain ⟨next, hoperand⟩ := next_operand_of_mem opened hkind
    exact ⟨next, Expectation.next_factor_of_operand hoperand⟩

/-- An operand is read where a factor or an operand is expected. -/
theorem operand_tracks (hlevels : opened.length + levels = limit)
    (hinner : InnerTracks limit levels opened) (hvalid : ∀ token ∈ tokens, token.Valid)
    (hstart : start = .operand opened ∨ start = .factor opened ∧ headKind tokens ≠ .minus) :
    Tracks limit start (.operator opened) (fun _ => True) tokens
      (operand (innerWithin levels) tokens) := by
  obtain ⟨hopened, hnext, hexpected⟩ := operand_expected hstart
  have hne : operandStarts ≠ [] := List.cons_ne_nil _ _
  cases tokens with
  | nil => exact .unexpected [] [] rfl rfl hnext hne hexpected
  | cons token rest =>
    obtain ⟨htoken, hrest⟩ := List.forall_mem_cons.1 hvalid
    have htake : ∀ {kind}, token.kind = kind →
        start.next token.kind = Expectation.insideOperand opened kind := fun h => h ▸ hnext
    have hdeep : levels = 0 → start.opened.length = limit := by
      rintro rfl
      rw [hopened, ← hlevels, Nat.add_zero]
    have hvariable : ∀ ref, refKind? token.kind = some ref →
        variableOperand ref token.text = .ok (.variable (.ofText ref token.text)) :=
      fun ref href => htoken.variableOperand_eq (refKind?_eq_some_iff.1 href)
    cases hkind : token.kind with
    | number =>
      simp only [operand, hkind]
      cases hnumber : numberOperand token.text with
      | ok value => exact .cons (htake hkind) (.done trivial)
      | error refusal =>
        obtain ⟨hlong, rfl⟩ := numberOperand_error (htoken.admits hkind) hnumber
        exact .tooLong List.mem_cons_self hkind hlong
    | function =>
      cases levels with
      | zero =>
        simp only [innerWithin, operand, hkind]
        exact .tooDeep [] rest rfl rfl (.inl hkind) (htake hkind) (hdeep rfl)
      | succ levels' =>
        simp only [innerWithin, operand, hkind]
        exact .cons (htake hkind) ((arguments_tracks (hinner levels' rfl .call) rest hrest).bind
          hrest fun _ _ _ => .done trivial)
    | leftParen =>
      cases levels with
      | zero =>
        simp only [innerWithin, operand, hkind]
        exact .tooDeep [] rest rfl rfl (.inr hkind) (htake hkind) (hdeep rfl)
      | succ levels' =>
        simp only [innerWithin, operand, hkind]
        exact .cons (htake hkind) ((groupBody_tracks (hinner levels' rfl .group) rest hrest).bind
          hrest fun _ _ _ => .done trivial)
    | matrix | scalar | defineMatrix | defineScalar | defineAnonymous =>
      rw [hkind] at hvariable
      simp only [operand, hkind, refKind?]
      rw [hvariable _ rfl]
      exact .cons (htake hkind) (.done trivial)
    | endOfInput | plus | minus | times | divide | arrow | comma | rightParen =>
      simp only [operand, hkind, refKind?]
      exact .unexpected [] (token :: rest) rfl rfl (htake hkind) hne hexpected

/-- A factor tracks what is expected. -/
theorem factor_tracks (hlevels : opened.length + levels = limit)
    (hinner : InnerTracks limit levels opened) :
    IsTracking limit (.factor opened) (.operator opened) (fun _ => True)
      (factor (innerWithin levels)) := by
  intro tokens hvalid
  cases tokens with
  | nil =>
    exact operand_tracks hlevels hinner hvalid (.inr ⟨rfl, by simp [headKind]⟩)
  | cons token rest =>
    by_cases hminus : token.kind = .minus
    · obtain ⟨-, hrest⟩ := List.forall_mem_cons.1 hvalid
      have hnext : Expectation.next (.factor opened) token.kind = some (.operand opened) :=
        if_pos hminus
      rw [factor, if_pos hminus]
      exact .cons hnext ((operand_tracks hlevels hinner hrest (.inl rfl)).bind hrest
        fun _ _ _ => .done trivial)
    · rw [factor, if_neg hminus]
      exact (operand_tracks hlevels hinner hvalid (.inr ⟨rfl, hminus⟩)).bind hvalid
        fun _ _ _ => .done trivial

/-! ## Expressions and lines -/

/-- An expression tracks what is expected. -/
theorem expr_tracks (hlevels : opened.length + levels = limit)
    (hinner : InnerTracks limit levels opened) :
    IsTracking limit (.factor opened) (.operator opened) StopsSum (exprWithin levels) := by
  have hterm : IsTracking limit (.factor opened) (.operator opened)
      (fun rest => StopsAt mulOp? rest ∧ True) (term (innerWithin levels)) :=
    chain_tracks (fun hop => mulOp?_eq_some_iff.1 hop ▸ Expectation.next_operator_mulOp)
      (factor_tracks hlevels hinner)
  have hsum : IsTracking limit (.factor opened) (.operator opened)
      (fun rest => StopsAt addOp? rest ∧ StopsAt mulOp? rest ∧ True) (sum (innerWithin levels)) :=
    chain_tracks (fun hop => addOp?_eq_some_iff.1 hop ▸ Expectation.next_operator_addOp) hterm
  intro tokens hvalid
  rw [exprWithin_eq]
  exact (hsum tokens hvalid).bind hvalid fun _ _ hstop => .done ⟨hstop.1, hstop.2.1⟩

/-- A parser of expressions tracks what is expected as long as no more than the limit is open. -/
theorem exprWithin_tracks (levels : Nat) (opened : List Opened)
    (hlevels : opened.length + levels = limit) :
    IsTracking limit (.factor opened) (.operator opened) StopsSum (exprWithin levels) := by
  -- what stands in parentheses is read with one level less, and one more is open
  induction levels generalizing opened with
  | zero => exact expr_tracks hlevels fun levels' h => nomatch h
  | succ levels ih =>
    refine expr_tracks hlevels fun levels' h opening => ?_
    obtain rfl : levels = levels' := by omega
    refine ih (opening :: opened) ?_
    rw [List.length_cons]
    omega

/-- Behind an expression that nothing encloses, only an arrow and the end of the input fit. -/
theorem next_operator_nil_eq_none (hstop : StopsSum tokens) (harrow : headKind tokens ≠ .arrow)
    (hend : headKind tokens ≠ .endOfInput) :
    Expectation.next (.operator []) (headKind tokens) = none := by
  obtain ⟨hplus, hminus, htimes, hdivide⟩ := hstop.headKind_ne
  cases hkind : headKind tokens <;> simp_all [Expectation.next, Expectation.behindOperand]

/-- Where the line may end, only a token that does not fit is refused. -/
theorem finish_earliest {body : Expr} {refusal : Refusal}
    (hend : start.next .endOfInput = some .nothing)
    (hrefused : ∀ token ∈ tokens.head?, start.next token.kind = none)
    (h : finish body tokens = .error refusal) : refusal.Earliest limit start tokens := by
  cases tokens with
  | nil => cases h
  | cons token rest =>
    cases h
    refine .unexpected [] (token :: rest) rfl rfl (hrefused token rfl) (List.cons_ne_nil _ _) ?_
    rw [List.forall_mem_singleton]
    exact ⟨_, hend⟩

/-- A target tracks what is expected behind an arrow. -/
theorem target_tracks (limit : Nat) :
    IsTracking limit .target .finish (fun _ => True) target := by
  intro tokens hvalid
  have hnamed : Tracks limit .target .finish (fun _ => True) tokens
      (expect [.matrix, .scalar] tokens) := by
    refine expect_tracks (List.cons_ne_nil _ _) (by simp) (by simp [Expectation.next]) fun h => ?_
    exact if_neg (by simpa using h)
  exact hnamed.bind hvalid fun _ _ _ => .done trivial

/-- Behind an arrow a line is refused at the first token that cannot stand there. -/
theorem target_bind_finish_earliest {sum : Sum} {refusal : Refusal}
    (hvalid : ∀ token ∈ tokens, token.Valid)
    (hends : ∀ token ∈ tokens, token.kind ≠ .endOfInput)
    (h : (target tokens >>= fun named => finish (.mk sum (some named.value)) named.rest) =
      .error refusal) : refusal.Earliest limit .target tokens := by
  have htarget := target_tracks limit tokens hvalid
  cases hresult : target tokens with
  | error stopped =>
    rw [hresult] at h htarget
    cases h
    exact htarget
  | ok named =>
    rw [hresult] at h htarget
    obtain ⟨used, hsplit, hused, -⟩ := htarget
    rw [hsplit] at hends ⊢
    obtain ⟨-, hends⟩ := List.forall_mem_append.1 hends
    have hrefused : ∀ token ∈ named.rest.head?, Expectation.next .finish token.kind = none :=
      fun token htoken => if_neg (hends token (List.mem_of_mem_head? htoken))
    exact (finish_earliest rfl hrefused h).prepend hused

/-- A line is refused at the earliest token that is not expected or opens too much. -/
theorem line_earliest {line : List Token} {refusal : Refusal}
    (hvalid : ∀ token ∈ line, token.Valid) (hends : ∀ token ∈ line, token.kind ≠ .endOfInput)
    (h : Parser.line line = .error refusal) :
    refusal.Earliest nestingLimit (.factor []) line := by
  have hbody := exprWithin_tracks nestingLimit [] (Nat.zero_add _) line hvalid
  unfold Parser.line at h
  cases hresult : exprWithin nestingLimit line with
  | error stopped =>
    rw [hresult] at h hbody
    cases h
    exact hbody
  | ok body =>
    rw [hresult] at h hbody
    obtain ⟨value, left, shorter⟩ := body
    obtain ⟨used, hsplit, hused, hstop⟩ := hbody
    rw [hsplit] at hends hvalid ⊢
    obtain ⟨-, hends⟩ := List.forall_mem_append.1 hends
    obtain ⟨-, hvalid⟩ := List.forall_mem_append.1 hvalid
    refine Refusal.Earliest.prepend ?_ hused
    cases left with
    | nil => cases h
    | cons token rest =>
      obtain ⟨htoken, hrest⟩ := List.forall_mem_cons.1 hends
      by_cases harrow : token.kind = .arrow
      · simp only [bind, Except.bind, harrow, if_true] at h
        have hfront : Expectation.after (.operator []) ([token].map Token.kind) =
            some .target := by
          rw [List.map_singleton, harrow]
          rfl
        have hvalidRest := (List.forall_mem_cons.1 hvalid).2
        exact (target_bind_finish_earliest hvalidRest hrest h).prepend hfront
      · simp only [bind, Except.bind, harrow, if_false] at h
        refine finish_earliest rfl ?_ h
        rintro _ ⟨⟩
        exact next_operator_nil_eq_none hstop harrow htoken

end Parser

/-- What a line is cut into can be written as it is. -/
theorem Token.valid_of_ofSource {source : String} {tokens : List Token}
    (h : ofSource source = .ok tokens) : ∀ token ∈ beforeEnd tokens, token.Valid := by
  rw [ofSource] at h
  split at h
  · next hscan =>
    cases h
    obtain ⟨body, rfl, hbody⟩ := scan_ok hscan
    rw [beforeEnd_append_cons (fun token htoken => (hbody token htoken).2) rfl]
    exact fun token htoken => (hbody token htoken).1
  · cases h

/-- What the parser refuses is refused at the earliest token, and reported there. -/
theorem Expr.ofTokens_earliest {tokens : List Token} {source : Option String} {failure : Failure}
    (hvalid : ∀ token ∈ Token.beforeEnd tokens, token.Valid)
    (h : Expr.ofTokens tokens source = .error failure) :
    ∃ refusal, failure = failureOf source (endPosition tokens) refusal ∧
      refusal.Earliest nestingLimit (.factor []) (Token.beforeEnd tokens) := by
  rw [Expr.ofTokens, ← Token.beforeEnd] at h
  cases hline : Parser.line (Token.beforeEnd tokens) with
  | ok expr =>
    rw [hline] at h
    cases h
  | error refusal =>
    rw [hline] at h
    cases h
    exact ⟨refusal, rfl, line_earliest hvalid (fun _ => Token.kind_ne_of_mem_beforeEnd) hline⟩

/-- Tokens that can be written for their kinds are refused because they are no line, or because a
number is too long. -/
theorem Expr.ofTokens_error {tokens : List Token} {source : Option String} {failure : Failure}
    (hvalid : ∀ token ∈ Token.beforeEnd tokens, token.Valid)
    (h : Expr.ofTokens tokens source = .error failure) :
    (∃ report, failure = .report report ∧ report.cause.reportClass = .syntactic) ∨
      ∃ number ∈ Token.beforeEnd tokens, number.kind = .number ∧
        Numeral.digitLimit < number.text.toList.length ∧
        failure = .fault (.tooLongToRead number.text.toList.length) := by
  obtain ⟨refusal, rfl, hearliest⟩ := Expr.ofTokens_earliest hvalid h
  cases hearliest with
  | unexpected used behind => cases behind <;> exact .inl ⟨_, rfl, rfl⟩
  | tooDeep used behind => exact .inl ⟨_, rfl, rfl⟩
  | @tooLong number hmem hkind hlong => exact .inr ⟨number, hmem, hkind, hlong, rfl⟩

end MatrixCalc
