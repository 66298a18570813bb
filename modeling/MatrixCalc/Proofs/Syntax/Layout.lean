import MatrixCalc.Proofs.Syntax.Refusal
import MatrixCalc.Proofs.Token.Layout
import Mathlib.Data.List.Forall2

/-!
# The layout of a line does not matter

A parser looks at the words of its tokens and not at their places. So on tokens with the same
words it reads the same tree or stops for the same reason (`line_alike`): `Alike.bind` puts two
parsers in a row, and each parser follows from those it is made of. With the tokens of a layout
this gives `Layout.tokens_read_back`: white space between the words of a line changes nothing but
places.
-/

namespace MatrixCalc

open MatrixCalc.Parser MatrixCalc.Token

/-- Tokens with the same words, wherever they stand. -/
abbrev Token.SameWords : List Token → List Token → Prop :=
  List.Forall₂ fun token other => token.word = other.word

/-- Tokens have the same words exactly if their lists of words are equal. -/
theorem Token.sameWords_iff {tokens others : List Token} :
    SameWords tokens others ↔ tokens.map word = others.map word := by
  rw [← List.forall₂_eq_eq_eq, List.forall₂_map_left_iff, List.forall₂_map_right_iff]

/-- Refusals for the same reason, at tokens with the same words. -/
inductive Refusal.Alike : Refusal → Refusal → Prop
  | unexpected (expected : List TokenKind) {found other : Option Token}
      (hword : found.map Token.word = other.map Token.word) :
      Alike (.unexpected expected found) (.unexpected expected other)
  | tooDeep {found other : Token} (hword : found.word = other.word) :
      Alike (.tooDeep found) (.tooDeep other)
  | meaningless (failure : Failure) : Alike (.meaningless failure) (.meaningless failure)

/-- A refusal is alike to itself. -/
theorem Refusal.Alike.refl (refusal : Refusal) : refusal.Alike refusal := by
  cases refusal with
  | unexpected expected found => exact .unexpected expected rfl
  | tooDeep found => exact .tooDeep rfl
  | meaningless failure => exact .meaningless failure

namespace Parser

variable {α β γ δ ω : Type}

/-- `Alike R result other` says that both are values that are related, or refusals for the same
reason. -/
inductive Alike (R : α → β → Prop) : Except Refusal α → Except Refusal β → Prop
  | ok {value : α} {other : β} (h : R value other) : Alike R (.ok value) (.ok other)
  | error {refusal other : Refusal} (h : refusal.Alike other) :
      Alike R (.error refusal) (.error other)

/-- Values that are related, with the same words left behind them. -/
structure ParsedAlike {bound bound' : Nat} (R : α → α → Prop) (parsed : Parsed α bound)
    (other : Parsed α bound') : Prop where
  value : R parsed.value other.value
  rest : SameWords parsed.rest other.rest

/-- A parser that reads the same from tokens with the same words. -/
def IgnoresPlaces (parser : Parser α) : Prop :=
  ∀ {tokens others}, SameWords tokens others →
    Alike (ParsedAlike (· = ·)) (parser tokens) (parser others)

/-- Two steps in a row end alike if each does. -/
theorem Alike.bind {R : α → β → Prop} {S : γ → δ → Prop} {first : Except Refusal α}
    {other : Except Refusal β} {left : α → Except Refusal γ} {right : β → Except Refusal δ}
    (h : Alike R first other) (hthen : ∀ a b, R a b → Alike S (left a) (right b)) :
    Alike S (first >>= left) (other >>= right) := by
  cases h with
  | ok hvalues => exact hthen _ _ hvalues
  | error h => exact .error h

/-- `expect` looks at kinds only. -/
theorem expect_alike (kinds : List TokenKind) {tokens others : List Token}
    (h : SameWords tokens others) :
    Alike (ParsedAlike fun token other => token.word = other.word) (expect kinds tokens)
      (expect kinds others) := by
  cases h with
  | nil => exact .error (.unexpected kinds rfl)
  | @cons token other rest behind hword hrest =>
    have hkind : token.kind = other.kind := congrArg Word.kind hword
    simp only [expect, hkind]
    split
    · exact .ok ⟨hword, hrest⟩
    · exact .error (.unexpected kinds (congrArg some hword))

/-! ## Chains -/

/-- A chain does not look at places, if its items do not. -/
theorem joined_alike {operator? : TokenKind → Option ω} {item : Parser α} {join : β → ω → α → β}
    (hitem : IgnoresPlaces item) :
    ∀ (before : β) (tokens others : List Token), SameWords tokens others →
      Alike (ParsedAlike (· = ·)) (joined operator? item join before tokens)
        (joined operator? item join before others)
  | before, [], _, .nil => by
    rw [joined]
    exact .ok ⟨rfl, .nil⟩
  | before, token :: rest, other :: behind, .cons hword hrest => by
    have hkind : token.kind = other.kind := congrArg Word.kind hword
    rw [joined, joined]
    cases hop : operator? token.kind with
    | none =>
      rw [← hkind, hop]
      exact .ok ⟨rfl, .cons hword hrest⟩
    | some op =>
      rw [← hkind, hop]
      refine (hitem hrest).bind fun next next' hnext => ?_
      rw [← hnext.value]
      exact (joined_alike hitem _ _ _ hnext.rest).bind fun _ _ hall => .ok ⟨hall.value, hall.rest⟩
termination_by _ tokens => tokens.length
decreasing_by
  have := next.shorter
  simp only [List.length_cons]
  omega

@[inherit_doc Parser.joined_alike]
theorem chain_alike {operator? : TokenKind → Option ω} {item : Parser α} {single : α → β}
    {join : β → ω → α → β} (hitem : IgnoresPlaces item) :
    IgnoresPlaces (chain operator? item single join) := by
  intro tokens others h
  refine (hitem h).bind fun first first' hfirst => ?_
  rw [← hfirst.value]
  exact (joined_alike hitem _ _ _ hfirst.rest).bind fun _ _ hall => .ok ⟨hall.value, hall.rest⟩

/-! ## Groups and calls -/

/-- Arguments do not look at places, if expressions do not. -/
theorem moreArguments_alike {inner : Parser Expr} (hinner : IgnoresPlaces inner) :
    ∀ tokens others : List Token, SameWords tokens others →
      Alike (ParsedAlike (· = ·)) (moreArguments inner tokens) (moreArguments inner others)
  | [], _, .nil => by
    rw [moreArguments]
    exact .ok ⟨rfl, .nil⟩
  | token :: rest, other :: behind, .cons hword hrest => by
    have hkind : token.kind = other.kind := congrArg Word.kind hword
    rw [moreArguments, moreArguments]
    by_cases hcomma : token.kind = .comma
    · rw [if_pos hcomma, if_pos (hkind ▸ hcomma)]
      refine (hinner hrest).bind fun next next' hnext => ?_
      exact (moreArguments_alike hinner _ _ hnext.rest).bind fun _ _ hmore =>
        .ok ⟨congrArg₂ Arguments.cons hnext.value hmore.value, hmore.rest⟩
    · rw [if_neg hcomma, if_neg (hkind ▸ hcomma)]
      exact .ok ⟨rfl, .cons hword hrest⟩
termination_by tokens => tokens.length
decreasing_by
  have := next.shorter
  simp only [List.length_cons]
  omega

@[inherit_doc Parser.moreArguments_alike]
theorem arguments_alike {inner : Parser Expr} (hinner : IgnoresPlaces inner) :
    IgnoresPlaces (arguments inner) := by
  intro tokens others h
  refine (expect_alike [.leftParen] h).bind fun _ _ hopening => ?_
  refine (hinner hopening.rest).bind fun _ _ hfirst => ?_
  refine (moreArguments_alike hinner _ _ hfirst.rest).bind fun _ _ hmore => ?_
  exact (expect_alike [.rightParen] hmore.rest).bind fun _ _ hclosing =>
    .ok ⟨congrArg₂ Arguments.cons hfirst.value hmore.value, hclosing.rest⟩

/-- A group does not look at places, if the expression in it does not. -/
theorem groupBody_alike {inner : Parser Expr} (hinner : IgnoresPlaces inner) :
    IgnoresPlaces (groupBody inner) := by
  intro tokens others h
  refine (hinner h).bind fun _ _ hbody => ?_
  exact (expect_alike [.rightParen] hbody.rest).bind fun _ _ hclosing =>
    .ok ⟨hbody.value, hclosing.rest⟩

/-! ## Operands and factors -/

section Operands

variable {inner : Option (Parser Expr)}

/-- An operand does not look at places, if what may stand inside it does not. -/
theorem operand_alike (hinner : ∀ parser ∈ inner, IgnoresPlaces parser) :
    IgnoresPlaces (operand inner) := by
  intro tokens others h
  cases h with
  | nil => exact .error (.unexpected operandStarts rfl)
  | @cons token other rest behind hword hrest =>
    obtain ⟨kind, text, pos⟩ := token
    obtain ⟨kind', text', pos'⟩ := other
    cases hword
    cases kind with
    | number =>
      simp only [operand]
      cases numberOperand text with
      | ok value => exact .ok ⟨rfl, hrest⟩
      | error refusal => exact .error (.refl refusal)
    | function =>
      cases inner with
      | none => exact .error (.tooDeep rfl)
      | some parser =>
        exact (arguments_alike (hinner parser rfl) hrest).bind fun _ _ hsupplied =>
          .ok ⟨congrArg (Operand.call text) hsupplied.value, hsupplied.rest⟩
    | leftParen =>
      cases inner with
      | none => exact .error (.tooDeep rfl)
      | some parser =>
        exact (groupBody_alike (hinner parser rfl) hrest).bind fun _ _ hbody =>
          .ok ⟨congrArg Operand.group hbody.value, hbody.rest⟩
    | matrix | scalar | defineMatrix | defineScalar | defineAnonymous =>
      simp only [operand, refKind?]
      cases variableOperand _ text with
      | ok value => exact .ok ⟨rfl, hrest⟩
      | error refusal => exact .error (.refl refusal)
    | endOfInput | plus | minus | times | divide | arrow | comma | rightParen =>
      exact .error (.unexpected operandStarts rfl)

/-- A factor does not look at places, if what may stand inside it does not. -/
theorem factor_alike (hinner : ∀ parser ∈ inner, IgnoresPlaces parser) :
    IgnoresPlaces (factor inner) := by
  intro tokens others h
  cases h with
  | nil => exact .error (.unexpected operandStarts rfl)
  | @cons token other rest behind hword hrest =>
    have hkind : token.kind = other.kind := congrArg Word.kind hword
    simp only [factor, hkind]
    split
    · exact (operand_alike hinner hrest).bind fun _ _ hbody =>
        .ok ⟨congrArg (Factor.mk true) hbody.value, hbody.rest⟩
    · exact (operand_alike hinner (.cons hword hrest)).bind fun _ _ hbody =>
        .ok ⟨congrArg (Factor.mk false) hbody.value, hbody.rest⟩

end Operands

/-! ## Expressions and lines -/

/-- An expression does not look at places, if what may stand inside it does not. -/
theorem expr_alike {inner : Option (Parser Expr)}
    (hinner : ∀ parser ∈ inner, IgnoresPlaces parser) : IgnoresPlaces (expr inner) := by
  intro tokens others h
  have hsum : IgnoresPlaces (sum inner) := chain_alike (chain_alike (factor_alike hinner))
  exact (hsum h).bind fun _ _ hall => .ok ⟨congrArg (Expr.mk · none) hall.value, hall.rest⟩

/-- The expressions inside groups and calls do not look at places. -/
theorem exprWithin_alike (levels : Nat) : IgnoresPlaces (exprWithin levels) := by
  induction levels with
  | zero =>
    refine expr_alike ?_
    nofun
  | succ levels ih =>
    refine expr_alike ?_
    rintro _ ⟨⟩
    exact ih

/-- A target does not look at places. -/
theorem target_alike : IgnoresPlaces target := by
  intro tokens others h
  refine (expect_alike [.matrix, .scalar] h).bind fun named named' hnamed => .ok ⟨?_, hnamed.rest⟩
  have hkind : named.value.kind = named'.value.kind := congrArg Word.kind hnamed.value
  have htext : named.value.text = named'.value.text := congrArg Word.text hnamed.value
  simp only [hkind, htext]

/-- A line ends, or is refused for its next token, wherever this token stands. -/
theorem finish_alike (body : Expr) {tokens others : List Token} (h : SameWords tokens others) :
    Alike (· = ·) (finish body tokens) (finish body others) := by
  cases h with
  | nil => exact .ok rfl
  | cons hword hrest => exact .error (.unexpected [.endOfInput] (congrArg some hword))

/-- Tokens with the same words are read as the same tree or refused for the same reason. -/
theorem line_alike {tokens others : List Token} (h : SameWords tokens others) :
    Alike (· = ·) (line tokens) (line others) := by
  refine (exprWithin_alike nestingLimit h).bind fun body body' hbody => ?_
  obtain ⟨value, rest, shorter⟩ := body
  obtain ⟨value', rest', shorter'⟩ := body'
  obtain ⟨hvalue, hrest⟩ := hbody
  cases hvalue
  cases hrest with
  | nil => exact .ok rfl
  | @cons token other rest behind hword hbehind =>
    have hkind : token.kind = other.kind := congrArg Word.kind hword
    by_cases harrow : token.kind = .arrow
    · simp only [harrow, ← hkind, if_true]
      refine (target_alike hbehind).bind fun named named' hnamed => ?_
      rw [hnamed.value]
      exact finish_alike _ hnamed.rest
    · simp only [harrow, ← hkind, if_false]
      exact finish_alike value (.cons hword hbehind)

end Parser

/-! ## Lines as they are reported -/

/-- Two results of parsing a line: the same tree, or reports of the same kind of token found where
the same kinds, if any, were expected. Only the places may differ. -/
inductive ParsesAlike : Except Failure Expr → Except Failure Expr → Prop
  | tree (expr : Expr) : ParsesAlike (.ok expr) (.ok expr)
  | unexpected (expected : List TokenKind) (found : TokenKind) (pos pos' : Int)
      (context context' : Option Context) :
      ParsesAlike (.error (.report ⟨.unexpected expected found pos, context⟩))
        (.error (.report ⟨.unexpected expected found pos', context'⟩))
  | tooDeep (found : TokenKind) (pos pos' : Int) (context context' : Option Context) :
      ParsesAlike (.error (.report ⟨.nestedTooDeeply found pos, context⟩))
        (.error (.report ⟨.nestedTooDeeply found pos', context'⟩))

/-- Refusals for the same reason are reported alike, unless the reason is a token that has no
meaning. -/
theorem Refusal.Alike.failureOf {refusal other : Refusal} (h : refusal.Alike other)
    (hreport : ∀ failure, refusal ≠ .meaningless failure) (source source' : Option String)
    (endPos endPos' : Int) :
    ParsesAlike (.error (Expr.failureOf source endPos refusal))
      (.error (Expr.failureOf source' endPos' other)) := by
  cases h with
  | @unexpected expected found other hword =>
    cases found with
    | none =>
      obtain rfl := Option.map_eq_none_iff.1 hword.symm
      exact .unexpected ..
    | some token =>
      obtain ⟨token', rfl, hsame⟩ := Option.map_eq_some_iff.1 hword.symm
      have hkind : token'.kind = token.kind := congrArg Word.kind hsame
      simp only [Expr.failureOf, hkind]
      exact .unexpected ..
  | @tooDeep found other hword =>
    have hkind : found.kind = other.kind := congrArg Word.kind hword
    simp only [Expr.failureOf, hkind]
    exact .tooDeep ..
  | meaningless failure => exact absurd rfl (hreport failure)

/-- Readable tokens with the same words parse alike. -/
theorem Expr.ofTokens_alike {tokens others : List Token} (source source' : Option String)
    (h : SameWords (beforeEnd tokens) (beforeEnd others))
    (hreadable : ∀ token ∈ beforeEnd tokens, token.Readable) :
    ParsesAlike (Expr.ofTokens tokens source) (Expr.ofTokens others source') := by
  have hvalid : ∀ token ∈ beforeEnd tokens, token.Valid :=
    fun token htoken => (hreadable token htoken).valid
  have hearliest := fun refusal => @line_earliest (beforeEnd tokens) refusal hvalid
    (fun _ => kind_ne_of_mem_beforeEnd)
  have hline := line_alike h
  rw [Expr.ofTokens, Expr.ofTokens, ← beforeEnd, ← beforeEnd]
  generalize line (beforeEnd tokens) = result at hline hearliest
  generalize line (beforeEnd others) = result' at hline
  cases hline with
  | ok heq =>
    subst heq
    exact .tree _
  | @error refusal other hrefusal =>
    refine hrefusal.failureOf ?_ source source' _ _
    -- only a number that is too long has no meaning
    rintro failure rfl
    cases hearliest _ rfl with
    | @tooLong number hmem hkind hlong =>
      have := (hreadable number hmem).short hkind
      omega

/-! ## Lines that are laid out -/

/-- The end of the input is not among the words of a line. -/
theorem SpacedWord.kind_ne_of_mem_tokens {pos : Nat} {items : List SpacedWord} {token : Token}
    (h : token ∈ SpacedWord.tokens pos items) : token.kind ≠ .endOfInput := by
  induction items generalizing pos with
  | nil => cases h
  | cons item rest ih =>
    rcases List.mem_cons.1 h with rfl | hrest
    · exact item.kind
    · exact ih hrest

/-- The tokens of a layout have the words of the layout. -/
theorem Layout.map_word_tokens (layout : Layout) :
    (beforeEnd layout.tokens).map word = layout.words := by
  rw [Layout.tokens, beforeEnd_append_cons (fun _ => SpacedWord.kind_ne_of_mem_tokens) rfl,
    SpacedWord.map_word_tokens]
  rfl

/-- The words of a layout are read back from it, each where it was put. And a line with the same
words parses as the layout does: to the same tree, or to a report that finds and expects the same
kinds of token. -/
theorem Layout.tokens_read_back (layout : Layout) :
    ofSource layout.text = .ok layout.tokens ∧
    ∀ source tokens, ofSource source = .ok tokens →
      (beforeEnd tokens).map word = layout.words →
      (∀ word ∈ layout.words, word.kind = .number →
        word.text.toList.length ≤ Numeral.digitLimit) →
      ParsesAlike (Expr.parse source) (Expr.parse layout.text) := by
  have hlayout := layout.ofSource_text
  refine ⟨hlayout, fun source tokens hsource hwords hshort => ?_⟩
  have hsame : SameWords (beforeEnd tokens) (beforeEnd layout.tokens) :=
    sameWords_iff.2 (hwords.trans layout.map_word_tokens.symm)
  have hreadable : ∀ token ∈ beforeEnd tokens, token.Readable := fun token htoken =>
    ⟨valid_of_ofSource hsource token htoken,
      hshort token.word (hwords ▸ List.mem_map_of_mem htoken)⟩
  have hparses := Expr.ofTokens_alike (some source) (some layout.text) hsame hreadable
  rwa [Expr.parse, Expr.parse, hsource, hlayout]

/-- A line without white space between its words, and the same words on two lines. -/
theorem Layout.tokens_read_back_arrow :
    let tokens : List Token :=
      [⟨.number, "2", 0⟩, ⟨.minus, "-", 1⟩, ⟨.defineAnonymous, "$$", 2⟩, ⟨.arrow, "->", 4⟩,
        ⟨.matrix, "B", 6⟩, ⟨.endOfInput, "", 7⟩]
    let layout : Layout :=
      ⟨[⟨[], ⟨.number, "2"⟩, nofun, nofun, by decide, List.all_eq_true.1 rfl⟩,
        ⟨[' '], ⟨.minus, "-"⟩, List.all_eq_true.1 rfl, nofun, rfl⟩,
        ⟨['\t', ' '], ⟨.defineAnonymous, "$$"⟩, List.all_eq_true.1 rfl, nofun, rfl⟩,
        ⟨['\r', '\n'], ⟨.arrow, "->"⟩, List.all_eq_true.1 rfl, nofun, rfl⟩,
        ⟨['\t'], ⟨.matrix, "B"⟩, List.all_eq_true.1 rfl, nofun, 'B', rfl, rfl⟩],
        [' '], by decide, List.all_eq_true.1 rfl⟩
    ofSource "2-$$->B" = .ok tokens ∧ (beforeEnd tokens).map word = layout.words ∧
      (∀ word ∈ layout.words, word.kind = .number →
        word.text.toList.length ≤ Numeral.digitLimit) ∧
      ofSource "2 -\t $$\r\n->\tB " =
        .ok [⟨.number, "2", 0⟩, ⟨.minus, "-", 2⟩, ⟨.defineAnonymous, "$$", 5⟩, ⟨.arrow, "->", 9⟩,
          ⟨.matrix, "B", 12⟩, ⟨.endOfInput, "", 14⟩] ∧
      ParsesAlike (Expr.parse "2-$$->B") (Expr.parse "2 -\t $$\r\n->\tB ") := by
  intro tokens layout
  have hsource : ofSource "2-$$->B" = .ok tokens := by decide +kernel
  have hshort : ∀ word ∈ layout.words, word.kind = .number →
      word.text.toList.length ≤ Numeral.digitLimit := by decide +kernel
  obtain ⟨hread, hparses⟩ := layout.tokens_read_back
  exact ⟨hsource, rfl, hshort, hread, hparses _ tokens hsource rfl hshort⟩

end MatrixCalc
