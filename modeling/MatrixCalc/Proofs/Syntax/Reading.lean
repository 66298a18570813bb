import MatrixCalc.Proofs.Syntax.Parser
import MatrixCalc.Proofs.Syntax.WellFormed

/-!
# Parsing reads the words of a tree

On tokens that can be written as they are, a parser returns a tree exactly if the tokens used up
are the words of that tree, with zeros in front of numbers left out, and the tree is well-formed
and not too deep. `exprWithin_reads` is the direction from the parser to the words, and
`Expr.gives_of_words` the one from the words to the parser.
-/

namespace MatrixCalc

open MatrixCalc.Parser MatrixCalc.Token

/-- The word that a token stands for: a number is read without the zeros in front. -/
def Token.reading (token : Token) : Word :=
  if token.kind = .number then ⟨.number, (Numeral.ofDigits token.text.toList).repr⟩
  else token.word

/-- The reading of a token is of its kind. -/
theorem Token.reading_kind (token : Token) : token.reading.kind = token.kind := by
  unfold Token.reading
  split
  · next h => exact h.symm
  · rfl

/-- Only numbers are read otherwise than they are written. -/
theorem Token.reading_of_ne_number {token : Token} (h : token.kind ≠ .number) :
    token.reading = token.word :=
  if_neg h

/-! ## Signs, numbers and variables -/

/-- Tokens of the kind of a sign are read as this sign. -/
theorem Token.Valid.reading_sign {token : Token} {word : Word} (hvalid : token.Valid)
    (hsign : word.IsSign) (hkind : token.kind = word.kind) : token.reading = word := by
  have htext : token.text = word.text :=
    String.toList_inj.1 (hsign.admits_iff.1 (hvalid.admits hkind))
  rw [reading_of_ne_number (hkind ▸ hsign.kind_ne_number), Token.word, hkind, htext]

/-- The signs of sums are plus and minus. -/
theorem addOp?_eq_some_iff {kind : TokenKind} {op : AddOp} :
    addOp? kind = some op ↔ kind = op.kind := by
  cases kind <;> cases op <;> simp [addOp?, AddOp.kind]

/-- The signs of products are times and over. -/
theorem mulOp?_eq_some_iff {kind : TokenKind} {op : MulOp} :
    mulOp? kind = some op ↔ kind = op.kind := by
  cases kind <;> cases op <;> simp [mulOp?, MulOp.kind]

/-- Each kind of reference has a kind of token of its own. -/
theorem refKind?_eq_some_iff {kind : TokenKind} {ref : RefKind} :
    refKind? kind = some ref ↔ kind = ref.tokenKind := by
  cases kind <;> cases ref <;> simp [refKind?, RefKind.tokenKind]

/-- The sign of a sum is read as the word of its operator. -/
theorem Token.Valid.reading_addOp {token : Token} {op : AddOp} (hvalid : token.Valid)
    (h : addOp? token.kind = some op) : token.reading = op.word :=
  hvalid.reading_sign (.addOp op) (addOp?_eq_some_iff.1 h)

/-- The sign of a product is read as the word of its operator. -/
theorem Token.Valid.reading_mulOp {token : Token} {op : MulOp} (hvalid : token.Valid)
    (h : mulOp? token.kind = some op) : token.reading = op.word :=
  hvalid.reading_sign (.mulOp op) (mulOp?_eq_some_iff.1 h)

/-- A run of digits is read as a number if it keeps to the limit. -/
theorem numberOperand_eq_ok_iff {text : String} {value : Operand}
    (hadmits : TokenKind.number.Admits text.toList) :
    numberOperand text = .ok value ↔
      text.toList.length ≤ Numeral.digitLimit ∧
        value = .number (Numeral.ofDigits text.toList) := by
  have hne : text ≠ "" := by
    rintro rfl
    exact hadmits.1 rfl
  have hread := Numeral.read_of_isNumeral hne hadmits.2
  rw [Numeral.readDigits] at hread
  by_cases hlength : text.toList.length ≤ Numeral.digitLimit
  · rw [if_pos hlength] at hread
    have hliteral : Numeral.read text >>= literal =
        .ok (.number (Numeral.ofDigits text.toList)) := by
      rw [hread]
      simp only [Except.map, bind, Except.bind, literal]
      rw [if_neg (by omega), Int.toNat_natCast]
    simp only [numberOperand, hliteral, hlength, true_and, Except.ok.injEq]
    exact eq_comm
  · rw [if_neg hlength] at hread
    simp only [numberOperand, hread, hlength, false_and, iff_false]
    intro hrefused
    cases hrefused

/-- A variable that is read is written with its letter. -/
theorem VarRef.toList_text_plain {kind : RefKind} (char : Char)
    (hkind : kind = .matrix ∨ kind = .scalar) :
    (VarRef.mk kind (some (String.singleton char))).text.toList = [char] := by
  rcases hkind with rfl | rfl <;> simp [VarRef.text, VarRef.shownName]

/-- A variable that is to be defined is written with a dollar sign before its letter. -/
theorem VarRef.toList_text_define {kind : RefKind} (char : Char)
    (hkind : kind = .defineMatrix ∨ kind = .defineScalar) :
    (VarRef.mk kind (some (String.singleton char))).text.toList = ['$', char] := by
  rcases hkind with rfl | rfl <;> simp [VarRef.text, VarRef.shownName]

/-- The variable that a token stands for. It is named by the last character, and `$$` not at
all. -/
def VarRef.ofText (kind : RefKind) (text : String) : VarRef :=
  ⟨kind, if kind = .defineAnonymous then none else text.toList.getLast?.map String.singleton⟩

/-- A token of a variable is never refused. -/
theorem Token.Valid.variableOperand_eq {token : Token} {kind : RefKind} (hvalid : token.Valid)
    (hkind : token.kind = kind.tokenKind) :
    variableOperand kind token.text = .ok (.variable (.ofText kind token.text)) := by
  have hadmits := hvalid.admits hkind
  cases kind with
  | matrix | scalar | defineMatrix | defineScalar =>
    obtain ⟨char, hchars, -⟩ := hadmits
    simp [variableOperand, VarRef.ofText, hchars]
  | defineAnonymous => rfl

/-- A token of a variable is read as a well-formed reference that is written as it. -/
theorem variableOperand_reads {token : Token} {kind : RefKind} {value : Operand}
    (hvalid : token.Valid) (hkind : token.kind = kind.tokenKind)
    (h : variableOperand kind token.text = .ok value) :
    ∃ ref, value = .variable ref ∧ ref.WellFormed ∧ token.word = ref.word := by
  have hadmits := hvalid.admits hkind
  cases kind with
  | matrix | scalar =>
    obtain ⟨char, hchars, hclass⟩ := hadmits
    simp only [variableOperand, hchars, reduceCtorEq, if_false, List.getLast?_singleton,
      Except.ok.injEq] at h
    refine ⟨_, h.symm, ⟨char, rfl, hclass⟩, ?_⟩
    rw [Token.word, hkind]
    refine congrArg _ (String.toList_inj.1 (hchars.trans ?_))
    exact (VarRef.toList_text_plain char (by simp)).symm
  | defineMatrix | defineScalar =>
    obtain ⟨char, hchars, hclass⟩ := hadmits
    simp only [variableOperand, hchars, reduceCtorEq, if_false, List.getLast?_cons_cons,
      List.getLast?_singleton, Except.ok.injEq] at h
    refine ⟨_, h.symm, ⟨char, rfl, hclass⟩, ?_⟩
    rw [Token.word, hkind]
    refine congrArg _ (String.toList_inj.1 (hchars.trans ?_))
    exact (VarRef.toList_text_define char (by simp)).symm
  | defineAnonymous =>
    simp only [variableOperand, if_true, Except.ok.injEq] at h
    refine ⟨_, h.symm, rfl, ?_⟩
    rw [Token.word, hkind]
    exact congrArg _ (String.toList_inj.1 hadmits)

/-- A token that is written as a well-formed reference is read as that reference. -/
theorem variableOperand_of_word {ref : VarRef} (hwf : ref.WellFormed) :
    variableOperand ref.kind ref.text = .ok (.variable ref) := by
  obtain ⟨kind, name⟩ := ref
  cases kind with
  | matrix | scalar | defineMatrix | defineScalar =>
    obtain ⟨char, rfl, -⟩ := hwf
    simp [variableOperand, VarRef.text, VarRef.shownName]
  | defineAnonymous =>
    cases hwf
    rfl

/-! ## From the parser to the words -/

/-- On valid tokens, a parser returns only good values, and uses up their words. -/
def Reads {α : Type} (parser : Parser α) (words : α → List Word) (good : α → Prop) : Prop :=
  ∀ ⦃tokens value rest⦄, (∀ token ∈ tokens, token.Valid) → Gives (parser tokens) value rest →
    ∃ used, tokens = used ++ rest ∧ used.map Token.reading = words value ∧ good value

section Chains

variable {α β ω : Type} {operator? : TokenKind → Option ω} {item : Parser α} {single : α → β}
  {join : β → ω → α → β} {itemWords : α → List Word} {itemGood : α → Prop}
  {words : β → List Word} {good : β → Prop} {sign : ω → Word}

/-- What is joined to a chain uses up a sign and an item each time. -/
theorem joined_reads (hitem : Reads item itemWords itemGood)
    (hsign : ∀ {token op}, Token.Valid token → operator? token.kind = some op →
      token.reading = sign op)
    (hwords : ∀ before op last,
      words (join before op last) = words before ++ sign op :: itemWords last)
    (hgood : ∀ before op last, good before → itemGood last → good (join before op last))
    {tokens rest : List Token} {before value : β} (hvalid : ∀ token ∈ tokens, token.Valid)
    (hbefore : good before) (h : Gives (joined operator? item join before tokens) value rest) :
    ∃ used, tokens = used ++ rest ∧ words value = words before ++ used.map Token.reading ∧
      good value := by
  -- each round uses up the operator and an item, so the induction is on the number of tokens
  induction hlength : tokens.length using Nat.strong_induction_on generalizing tokens before with
  | _ length ih =>
    cases tokens with
    | nil =>
      obtain ⟨rfl, rfl⟩ := (joined_gives_of_stop (by simp [StopsAt])).1 h
      exact ⟨[], rfl, by simp, hbefore⟩
    | cons token after =>
      obtain ⟨htoken, hafter⟩ := List.forall_mem_cons.1 hvalid
      cases hop : operator? token.kind with
      | none =>
        have hstop : StopsAt operator? (token :: after) := by
          intro _ hnext
          cases hnext
          exact hop
        obtain ⟨rfl, rfl⟩ := (joined_gives_of_stop hstop).1 h
        exact ⟨[], rfl, by simp, hbefore⟩
      | some op =>
        obtain ⟨last, middle, hlast, hrest⟩ := (joined_gives_of_step hop).1 h
        obtain ⟨front, rfl, hfront, hgoodLast⟩ := hitem hafter hlast
        have hshort : middle.length < length := by
          simp only [← hlength, List.length_cons, List.length_append]
          omega
        obtain ⟨back, rfl, hback, hgoodValue⟩ := ih _ hshort
          (List.forall_mem_append.1 hafter).2 (hgood _ op _ hbefore hgoodLast) hrest rfl
        refine ⟨token :: (front ++ back), by simp, ?_, hgoodValue⟩
        rw [hback, hwords, ← hfront, List.map_cons, List.map_append, hsign htoken hop]
        simp

/-- A chain uses up its first item, and a sign and an item each time after that. -/
theorem chain_reads (hitem : Reads item itemWords itemGood)
    (hsign : ∀ {token op}, Token.Valid token → operator? token.kind = some op →
      token.reading = sign op)
    (hsingle : ∀ first, words (single first) = itemWords first)
    (hwords : ∀ before op last,
      words (join before op last) = words before ++ sign op :: itemWords last)
    (hgoodSingle : ∀ first, itemGood first → good (single first))
    (hgood : ∀ before op last, good before → itemGood last → good (join before op last)) :
    Reads (chain operator? item single join) words good := by
  intro tokens value rest hvalid h
  obtain ⟨first, middle, hfirst, hrest⟩ := chain_gives.1 h
  obtain ⟨front, rfl, hfront, hgoodFirst⟩ := hitem hvalid hfirst
  obtain ⟨back, rfl, hback, hgoodValue⟩ := joined_reads hitem hsign hwords hgood
    (List.forall_mem_append.1 hvalid).2 (hgoodSingle _ hgoodFirst) hrest
  refine ⟨front ++ back, by simp, ?_, hgoodValue⟩
  rw [hback, hsingle, List.map_append, hfront]

end Chains

section Inside

variable {levels : Nat} {inner : Parser Expr}

/-- The parser of the expressions inside a group or call reads expressions of so many levels. -/
abbrev InnerReads (inner : Parser Expr) (levels : Nat) : Prop :=
  Reads inner Expr.words fun expr => expr.WellFormedInside ∧ expr.depth ≤ levels

/-- Further arguments use up a comma and an expression each time. -/
theorem moreArguments_reads (hinner : InnerReads inner levels) {tokens rest : List Token}
    {value : Arguments} (hvalid : ∀ token ∈ tokens, token.Valid)
    (h : Gives (moreArguments inner tokens) value rest) :
    ∃ used, tokens = used ++ rest ∧ used.map Token.reading = value.tailWords ∧
      value.WellFormed ∧ value.depth ≤ levels := by
  -- as for chains, each round uses up a comma and an expression
  induction hlength : tokens.length using Nat.strong_induction_on generalizing tokens value with
  | _ length ih =>
    by_cases hcomma : ∀ token ∈ tokens.head?, token.kind ≠ .comma
    · obtain ⟨rfl, rfl⟩ := (moreArguments_gives_of_stop hcomma).1 h
      exact ⟨[], rfl, rfl, trivial, Nat.zero_le _⟩
    · cases tokens with
      | nil => exact absurd nofun hcomma
      | cons token after =>
        have hkind : token.kind = .comma := by simpa using hcomma
        obtain ⟨htoken, hafter⟩ := List.forall_mem_cons.1 hvalid
        obtain ⟨first, middle, hfirst, more, hmore, rfl⟩ :=
          (moreArguments_gives_of_comma hkind).1 h
        obtain ⟨front, rfl, hfront, hwf, hdepth⟩ := hinner hafter hfirst
        have hshort : middle.length < length := by
          simp only [← hlength, List.length_cons, List.length_append]
          omega
        obtain ⟨back, rfl, hback, hwfMore, hdepthMore⟩ := ih _ hshort
          (List.forall_mem_append.1 hafter).2 hmore rfl
        refine ⟨token :: (front ++ back), by simp, ?_, ⟨hwf, hwfMore⟩, ?_⟩
        · rw [List.map_cons, List.map_append, hfront, hback, htoken.reading_sign .comma hkind]
          rfl
        · exact Nat.max_le.2 ⟨hdepth, hdepthMore⟩

/-- An operand uses up its words, if expressions inside it do. -/
theorem operand_reads (hinner : ∀ levels', levels = levels' + 1 →
      InnerReads (exprWithin levels') levels') :
    Reads (operand (innerWithin levels)) Operand.words
      fun operand => operand.WellFormed ∧ operand.depth ≤ levels := by
  intro tokens value rest hvalid h
  obtain ⟨token, after, rfl, hcase⟩ := operand_gives_cases h
  obtain ⟨htoken, hafter⟩ := List.forall_mem_cons.1 hvalid
  rcases hcase with hnumber | ⟨kind, hvariable⟩ | ⟨⟨within, hwithin⟩, hopen⟩
  · obtain ⟨hvalue, rfl⟩ := (operand_gives_number hnumber).1 h
    have hadmits := htoken.admits hnumber
    obtain ⟨hlength, rfl⟩ := (numberOperand_eq_ok_iff hadmits).1 hvalue
    refine ⟨[token], rfl, ?_, Numeral.fits_of_length_le hlength, Nat.zero_le _⟩
    simp [Token.reading, hnumber, Operand.words]
  · obtain ⟨hvalue, rfl⟩ := (operand_gives_variable hvariable).1 h
    have hkind := refKind?_eq_some_iff.1 hvariable
    obtain ⟨ref, rfl, hwf, hword⟩ := variableOperand_reads htoken hkind hvalue
    refine ⟨[token], rfl, ?_, hwf, Nat.zero_le _⟩
    have hne : token.kind ≠ .number := by
      rw [hkind]
      cases kind <;> simp [RefKind.tokenKind]
    rw [List.map_singleton, reading_of_ne_number hne, hword, Operand.words]
  · -- only here does the depth grow, by the level that the parenthesis opens
    cases levels with
    | zero => cases hwithin
    | succ levels' =>
      have hreads := hinner levels' rfl
      rcases hopen with hparen | hfunction
      · obtain ⟨body, hbody, rfl⟩ := (operand_gives_group hparen).1 h
        obtain ⟨closing, hbody, hclosing⟩ := groupBody_gives.1 hbody
        obtain ⟨used, rfl, hused, hwf, hdepth⟩ := hreads hafter hbody
        have hclosing' : closing.Valid := hafter closing (by simp)
        refine ⟨token :: (used ++ [closing]), by simp, ?_, hwf, Nat.succ_le_succ hdepth⟩
        rw [List.map_cons, List.map_append, hused, htoken.reading_sign .opening hparen,
          List.map_singleton, hclosing'.reading_sign .closing hclosing]
        rfl
      · obtain ⟨supplied, hsupplied, rfl⟩ := (operand_gives_call hfunction).1 h
        obtain ⟨opening, behind, first, middle, more, closing, rfl, hopening, hfirst, hmore,
          hclosing, rfl⟩ := arguments_gives.1 hsupplied
        obtain ⟨hopening', hbehind⟩ := List.forall_mem_cons.1 hafter
        obtain ⟨front, rfl, hfront, hwf, hdepth⟩ := hreads hbehind hfirst
        obtain ⟨back, rfl, hback, hwfMore, hdepthMore⟩ :=
          moreArguments_reads hreads (List.forall_mem_append.1 hbehind).2 hmore
        have hclosing' : closing.Valid := hbehind closing (by simp)
        refine ⟨token :: opening :: (front ++ (back ++ [closing])), by simp, ?_, ?_, ?_⟩
        · rw [List.map_cons, List.map_cons, List.map_append, List.map_append, hfront, hback,
            List.map_singleton, hopening'.reading_sign .opening hopening,
            hclosing'.reading_sign .closing hclosing,
            reading_of_ne_number (by simp [hfunction]), Token.word, hfunction]
          rfl
        · exact ⟨htoken.admits hfunction, nofun, hwf, hwfMore⟩
        · exact Nat.succ_le_succ (Nat.max_le.2 ⟨hdepth, hdepthMore⟩)

/-- A factor uses up its words, if its operand does. -/
theorem factor_reads {inner : Option (Parser Expr)}
    (h : Reads (operand inner) Operand.words
      fun operand => operand.WellFormed ∧ operand.depth ≤ levels) :
    Reads (factor inner) Factor.words fun factor => factor.WellFormed ∧ factor.depth ≤ levels := by
  intro tokens value rest hvalid hgives
  by_cases hminus : ∀ token ∈ tokens.head?, token.kind ≠ .minus
  · obtain ⟨body, hbody, rfl⟩ := (factor_gives_plain hminus).1 hgives
    exact h hvalid hbody
  · cases tokens with
    | nil => exact absurd nofun hminus
    | cons token after =>
      have hkind : token.kind = .minus := by simpa using hminus
      obtain ⟨body, hbody, rfl⟩ := (factor_gives_minus hkind).1 hgives
      obtain ⟨htoken, hafter⟩ := List.forall_mem_cons.1 hvalid
      obtain ⟨used, rfl, hused, hgood⟩ := h hafter hbody
      refine ⟨token :: used, rfl, ?_, hgood⟩
      rw [List.map_cons, hused, htoken.reading_sign .minus hkind]
      rfl

/-- An expression uses up its words, if those inside it do. -/
theorem expr_reads (hinner : ∀ levels', levels = levels' + 1 →
      InnerReads (exprWithin levels') levels') :
    InnerReads (exprWithin levels) levels := by
  have hterm : Reads (term (innerWithin levels)) Term.words
      fun term => term.WellFormed ∧ term.depth ≤ levels :=
    chain_reads (factor_reads (operand_reads hinner)) Token.Valid.reading_mulOp (fun _ => rfl)
      (fun _ _ _ => rfl) (fun _ h => h)
      (fun _ _ _ h h' => ⟨⟨h.1, h'.1⟩, Nat.max_le.2 ⟨h.2, h'.2⟩⟩)
  have hsum : Reads (sum (innerWithin levels)) Sum.words
      fun sum => sum.WellFormed ∧ sum.depth ≤ levels :=
    chain_reads hterm Token.Valid.reading_addOp (fun _ => rfl) (fun _ _ _ => rfl) (fun _ h => h)
      (fun _ _ _ h h' => ⟨⟨h.1, h'.1⟩, Nat.max_le.2 ⟨h.2, h'.2⟩⟩)
  intro tokens value rest hvalid h
  rw [exprWithin_eq] at h
  obtain ⟨all, hall, rfl⟩ := expr_gives.1 h
  obtain ⟨used, rfl, hused, hwf, hdepth⟩ := hsum hvalid hall
  exact ⟨used, rfl, hused, ⟨rfl, hwf⟩, hdepth⟩

end Inside

/-- An expression is read by using up its words. -/
theorem exprWithin_reads (levels : Nat) : InnerReads (exprWithin levels) levels := by
  -- what stands in parentheses is read with one level less
  induction levels with
  | zero => exact expr_reads (fun levels' h => nomatch h)
  | succ levels ih =>
    refine expr_reads fun levels' h => ?_
    obtain rfl : levels = levels' := by omega
    exact ih

/-! ## From the words to the parser -/

/-- A token that can be written as it is and, if it is a number, keeps to the limit. -/
structure Token.Readable (token : Token) : Prop where
  valid : token.Valid
  short : token.kind = .number → token.text.toList.length ≤ Numeral.digitLimit

/-- Behind an expression, no operator stands next. -/
def Parser.StopsSum (tokens : List Token) : Prop :=
  StopsAt addOp? tokens ∧ StopsAt mulOp? tokens

/-- A comma, a closing parenthesis and an arrow stop a sum. -/
theorem stopsSum_cons {token : Token} {tokens : List Token}
    (h : token.kind = .comma ∨ token.kind = .rightParen ∨ token.kind = .arrow) :
    StopsSum (token :: tokens) := by
  constructor
  all_goals
    intro next hnext
    cases hnext
    rcases h with h | h | h <;> rw [h] <;> rfl

/-- The end of the tokens stops a sum. -/
theorem stopsSum_nil : StopsSum [] :=
  ⟨by simp [StopsAt], by simp [StopsAt]⟩

/-- A token is of the kind of the word that it is read as. -/
theorem kind_eq_of_reading {token : Token} {word : Word} (h : token.reading = word) :
    token.kind = word.kind := by
  rw [← h, Token.reading_kind]

/-- A token that is read as a number gives this number. -/
theorem operand_gives_of_number {inner : Option (Parser Expr)} {token : Token} {value : Nat}
    {rest : List Token} (hreadable : token.Readable)
    (h : token.reading = ⟨.number, value.repr⟩) :
    Gives (operand inner (token :: rest)) (.number value) rest := by
  have hkind : token.kind = .number := kind_eq_of_reading h
  have hadmits := hreadable.valid.admits hkind
  refine (operand_gives_number hkind).2 ⟨(numberOperand_eq_ok_iff hadmits).2 ?_, rfl⟩
  refine ⟨hreadable.short hkind, ?_⟩
  rw [Token.reading, if_pos hkind] at h
  have hvalue := congrArg (fun word : Word => Numeral.ofDigits word.text.toList) h
  simp only [Numeral.ofDigits_repr] at hvalue
  rw [hvalue]

/-- A token that is read as a variable gives this variable. -/
theorem operand_gives_of_variable {inner : Option (Parser Expr)} {token : Token} {ref : VarRef}
    {rest : List Token} (hwf : ref.WellFormed) (h : token.reading = ref.word) :
    Gives (operand inner (token :: rest)) (.variable ref) rest := by
  have hkind : token.kind = ref.kind.tokenKind := kind_eq_of_reading h
  have hne : token.kind ≠ .number := by
    rw [hkind]
    cases ref.kind <;> simp [RefKind.tokenKind]
  rw [Token.reading_of_ne_number hne] at h
  refine (operand_gives_variable (refKind?_eq_some_iff.2 hkind)).2 ⟨?_, rfl⟩
  rw [show token.text = ref.text from congrArg Word.text h]
  exact variableOperand_of_word hwf

/-- Further arguments start with a comma. -/
theorem Arguments.head?_tailWords (supplied : Arguments) :
    ∀ word ∈ supplied.tailWords.head?, word = .comma := by
  cases supplied with
  | nil => nofun
  | cons first rest =>
    intro word hword
    cases hword
    rfl

/-- Behind an argument stands a comma or what is behind the arguments. -/
theorem stopsSum_tail {used rest : List Token} {supplied : Arguments}
    (hwords : used.map Token.reading = supplied.tailWords) (hrest : StopsSum rest) :
    StopsSum (used ++ rest) := by
  cases used with
  | nil => exact hrest
  | cons token after =>
    refine stopsSum_cons (.inl ?_)
    have hcomma := supplied.head?_tailWords token.reading (by rw [← hwords]; rfl)
    exact kind_eq_of_reading hcomma

mutual
/-- The words of an expression inside a group or call are read as that expression. -/
theorem Expr.gives_of_words {levels : Nat} {used rest : List Token} (expr : Expr)
    (hwf : expr.WellFormedInside) (hdepth : expr.depth ≤ levels)
    (hreadable : ∀ token ∈ used, token.Readable)
    (hwords : used.map Token.reading = expr.words) (hstop : StopsSum rest) :
    Gives (exprWithin levels (used ++ rest)) expr rest := by
  obtain ⟨sum, target⟩ := expr
  obtain ⟨rfl, hwf⟩ := hwf
  rw [exprWithin_eq]
  refine expr_gives.2 ⟨sum, ?_, rfl⟩
  refine sum.gives_of_words hwf hdepth hreadable hwords hstop.2 ?_
  exact (joined_gives_of_stop hstop.1).2 ⟨rfl, rfl⟩

/-- Having read a sum, the parser goes on with the operators behind it. -/
theorem Sum.gives_of_words {levels : Nat} {used rest out : List Token} (sum : Sum) {value : Sum}
    (hwf : sum.WellFormed) (hdepth : sum.depth ≤ levels)
    (hreadable : ∀ token ∈ used, token.Readable)
    (hwords : used.map Token.reading = sum.words) (hstop : StopsAt mulOp? rest)
    (hgives : Gives (joined addOp? (term (innerWithin levels)) .join sum rest) value out) :
    Gives (Parser.sum (innerWithin levels) (used ++ rest)) value out := by
  cases sum with
  | term last =>
    refine chain_gives.2 ⟨last, rest, ?_, hgives⟩
    refine last.gives_of_words hwf hdepth hreadable hwords ?_
    exact (joined_gives_of_stop hstop).2 ⟨rfl, rfl⟩
  | join before op last =>
    obtain ⟨front, back, rfl, hfront, hback⟩ := List.map_eq_append_iff.1 hwords
    obtain ⟨sign, behind, rfl, hsign, hbehind⟩ := List.map_eq_cons_iff.1 hback
    have hop : addOp? sign.kind = some op := addOp?_eq_some_iff.2 (kind_eq_of_reading hsign)
    have hdepths := Nat.max_le.1 hdepth
    obtain ⟨hreadableFront, hreadableBack⟩ := List.forall_mem_append.1 hreadable
    rw [List.append_assoc]
    -- the sum before the operator is read first, and then the parser takes one more step
    refine before.gives_of_words hwf.1 hdepths.1 hreadableFront hfront ?_ ?_
    · intro next hnext
      cases hnext
      rw [addOp?_eq_some_iff.1 hop]
      cases op <;> rfl
    · refine (joined_gives_of_step hop).2 ⟨last, rest, ?_, hgives⟩
      refine last.gives_of_words hwf.2 hdepths.2 (List.forall_mem_cons.1 hreadableBack).2 hbehind ?_
      exact (joined_gives_of_stop hstop).2 ⟨rfl, rfl⟩

/-- Having read a term, the parser goes on with the operators behind it. -/
theorem Term.gives_of_words {levels : Nat} {used rest out : List Token} (term : Term)
    {value : Term} (hwf : term.WellFormed) (hdepth : term.depth ≤ levels)
    (hreadable : ∀ token ∈ used, token.Readable)
    (hwords : used.map Token.reading = term.words)
    (hgives : Gives (joined mulOp? (factor (innerWithin levels)) .join term rest) value out) :
    Gives (Parser.term (innerWithin levels) (used ++ rest)) value out := by
  cases term with
  | factor last =>
    exact chain_gives.2 ⟨last, rest, last.gives_of_words hwf hdepth hreadable hwords, hgives⟩
  | join before op last =>
    obtain ⟨front, back, rfl, hfront, hback⟩ := List.map_eq_append_iff.1 hwords
    obtain ⟨sign, behind, rfl, hsign, hbehind⟩ := List.map_eq_cons_iff.1 hback
    have hop : mulOp? sign.kind = some op := mulOp?_eq_some_iff.2 (kind_eq_of_reading hsign)
    have hdepths := Nat.max_le.1 hdepth
    obtain ⟨hreadableFront, hreadableBack⟩ := List.forall_mem_append.1 hreadable
    rw [List.append_assoc]
    refine before.gives_of_words hwf.1 hdepths.1 hreadableFront hfront ?_
    refine (joined_gives_of_step hop).2 ⟨last, rest, ?_, hgives⟩
    exact last.gives_of_words hwf.2 hdepths.2 (List.forall_mem_cons.1 hreadableBack).2 hbehind

/-- The words of a factor are read as that factor. -/
theorem Factor.gives_of_words {levels : Nat} {used rest : List Token} (factor : Factor)
    (hwf : factor.WellFormed) (hdepth : factor.depth ≤ levels)
    (hreadable : ∀ token ∈ used, token.Readable)
    (hwords : used.map Token.reading = factor.words) :
    Gives (Parser.factor (innerWithin levels) (used ++ rest)) factor rest := by
  obtain ⟨negated, operand⟩ := factor
  cases negated with
  | true =>
    obtain ⟨sign, behind, rfl, hsign, hbehind⟩ := List.map_eq_cons_iff.1 hwords
    refine (factor_gives_minus (kind_eq_of_reading hsign)).2 ⟨operand, ?_, rfl⟩
    exact operand.gives_of_words hwf hdepth (List.forall_mem_cons.1 hreadable).2 hbehind
  | false =>
    have hoperand : Gives (Parser.operand (innerWithin levels) (used ++ rest)) operand rest :=
      operand.gives_of_words hwf hdepth hreadable hwords
    refine (factor_gives_plain ?_).2 ⟨operand, hoperand, rfl⟩
    obtain ⟨token, after, hcons, hcase⟩ := operand_gives_cases hoperand
    rw [hcons]
    -- an operand never starts with a minus sign
    intro next hnext hminus
    cases hnext
    rw [hminus] at hcase
    simp [refKind?] at hcase

/-- The words of an operand are read as that operand. -/
theorem Operand.gives_of_words {levels : Nat} {used rest : List Token} (operand : Operand)
    (hwf : operand.WellFormed) (hdepth : operand.depth ≤ levels)
    (hreadable : ∀ token ∈ used, token.Readable)
    (hwords : used.map Token.reading = operand.words) :
    Gives (Parser.operand (innerWithin levels) (used ++ rest)) operand rest := by
  cases operand with
  | number value =>
    obtain ⟨token, rfl, hword⟩ := List.map_eq_singleton_iff.1 hwords
    exact operand_gives_of_number (hreadable token List.mem_cons_self) hword
  | «variable» ref =>
    obtain ⟨token, rfl, hword⟩ := List.map_eq_singleton_iff.1 hwords
    exact operand_gives_of_variable hwf hword
  | group expr =>
    obtain ⟨opening, behind, rfl, hopening, hbehind⟩ := List.map_eq_cons_iff.1 hwords
    obtain ⟨inside, closings, rfl, hinside, hclosings⟩ := List.map_eq_append_iff.1 hbehind
    obtain ⟨closing, rfl, hclosing⟩ := List.map_eq_singleton_iff.1 hclosings
    cases levels with
    | zero => exact absurd hdepth (Nat.not_succ_le_zero _)
    | succ levels =>
      rw [List.cons_append, List.append_assoc]
      refine (operand_gives_group (kind_eq_of_reading hopening)).2 ⟨expr, ?_, rfl⟩
      refine groupBody_gives.2 ⟨closing, ?_, kind_eq_of_reading hclosing⟩
      have hreadableInside :=
        (List.forall_mem_append.1 (List.forall_mem_cons.1 hreadable).2).1
      exact expr.gives_of_words hwf (Nat.le_of_succ_le_succ hdepth) hreadableInside hinside
        (stopsSum_cons (.inr (.inl (kind_eq_of_reading hclosing))))
  | call function supplied =>
    cases supplied with
    | nil => exact absurd rfl hwf.2.1
    | cons first more =>
      obtain ⟨name, behind, rfl, hname, hbehind⟩ := List.map_eq_cons_iff.1 hwords
      obtain ⟨opening, inside, rfl, hopening, hinside⟩ := List.map_eq_cons_iff.1 hbehind
      obtain ⟨front, last, rfl, hfront, hlast⟩ := List.map_eq_append_iff.1 hinside
      obtain ⟨back, closings, rfl, hback, hclosings⟩ := List.map_eq_append_iff.1 hlast
      obtain ⟨closing, rfl, hclosing⟩ := List.map_eq_singleton_iff.1 hclosings
      have hfunction : name.kind = .function := kind_eq_of_reading hname
      have hclosingKind : closing.kind = .rightParen := kind_eq_of_reading hclosing
      have htext : name.text = function := by
        rw [Token.reading_of_ne_number (by simp [hfunction])] at hname
        exact congrArg Word.text hname
      cases levels with
      | zero => exact absurd hdepth (Nat.not_succ_le_zero _)
      | succ levels =>
        have hdepths := Nat.max_le.1 (Nat.le_of_succ_le_succ hdepth)
        have hstop : StopsSum (closing :: rest) := stopsSum_cons (.inr (.inl hclosingKind))
        have hreadableInside := (List.forall_mem_cons.1 (List.forall_mem_cons.1 hreadable).2).2
        obtain ⟨hreadableFront, hreadableLast⟩ := List.forall_mem_append.1 hreadableInside
        have hreadableBack := (List.forall_mem_append.1 hreadableLast).1
        rw [List.cons_append, List.cons_append, List.append_assoc, List.append_assoc]
        refine (operand_gives_call hfunction).2 ⟨.cons first more, ?_, by rw [htext]⟩
        refine arguments_gives.2 ⟨opening, _, first, back ++ closing :: rest, more, closing, rfl,
          kind_eq_of_reading hopening, ?_, ?_, hclosingKind, rfl⟩
        · exact first.gives_of_words hwf.2.2.1 hdepths.1 hreadableFront hfront
            (stopsSum_tail hback hstop)
        · exact more.gives_of_words hwf.2.2.2 hdepths.2 hreadableBack hback hstop
            (by simp [hclosingKind])

/-- The words of arguments behind the first are read as those arguments. -/
theorem Arguments.gives_of_words {levels : Nat} {used rest : List Token}
    (supplied : Arguments) (hwf : supplied.WellFormed) (hdepth : supplied.depth ≤ levels)
    (hreadable : ∀ token ∈ used, token.Readable)
    (hwords : used.map Token.reading = supplied.tailWords) (hstop : StopsSum rest)
    (hcomma : ∀ token ∈ rest.head?, token.kind ≠ .comma) :
    Gives (moreArguments (exprWithin levels) (used ++ rest)) supplied rest := by
  cases supplied with
  | nil =>
    obtain rfl := List.map_eq_nil_iff.1 hwords
    exact (moreArguments_gives_of_stop hcomma).2 ⟨rfl, rfl⟩
  | cons first more =>
    obtain ⟨comma, behind, rfl, hkind, hbehind⟩ := List.map_eq_cons_iff.1 hwords
    obtain ⟨front, back, rfl, hfront, hback⟩ := List.map_eq_append_iff.1 hbehind
    have hdepths := Nat.max_le.1 hdepth
    obtain ⟨hreadableFront, hreadableBack⟩ :=
      List.forall_mem_append.1 (List.forall_mem_cons.1 hreadable).2
    rw [List.cons_append, List.append_assoc]
    refine (moreArguments_gives_of_comma (kind_eq_of_reading hkind)).2
      ⟨first, back ++ rest, ?_, more, ?_, rfl⟩
    · exact first.gives_of_words hwf.1 hdepths.1 hreadableFront hfront
        (stopsSum_tail hback hstop)
    · exact more.gives_of_words hwf.2 hdepths.2 hreadableBack hback hstop hcomma
end

end MatrixCalc
