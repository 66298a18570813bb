import MatrixCalc.Proofs.Syntax.Refusal
import MatrixCalc.Proofs.Syntax.RoundTrip

/-!
# The grammar of lines

`DerivesLine tokens expr` says that the grammar derives a sequence of tokens, and that `expr` is
the derivation:

    line   := expr ("->" (matrix | scalar))?
    expr   := term (("+" | "-") term)*
    term   := factor (("*" | "/") factor)*
    factor := "-"? (number | variable | function "(" expr ("," expr)* ")" | "(" expr ")")

Only the kinds of tokens decide whether there is a derivation. On tokens that can be written as
they are, a tree is the derivation exactly if it is well-formed and its words are those of the
tokens (`derivesLine_iff`), and there is no second one (`DerivesLine.unique`). The parser returns
the derivation if groups and calls nest within the limit in it (`line_eq_ok_iff_derives`).
-/

namespace MatrixCalc

open MatrixCalc.Parser MatrixCalc.Token

mutual
/-- `DerivesExpr tokens expr` says that the tokens are an expression inside a group or call. -/
inductive DerivesExpr : List Token → Expr → Prop
  | mk {tokens : List Token} {sum : Sum} (hsum : DerivesSum tokens sum) :
      DerivesExpr tokens (.mk sum none)

/-- `DerivesSum tokens sum` says that the tokens are terms with additive operators between
them. -/
inductive DerivesSum : List Token → Sum → Prop
  | term {tokens : List Token} {last : Term} (hlast : DerivesTerm tokens last) :
      DerivesSum tokens (.term last)
  | join {front back : List Token} {sign : Token} {before : Sum} {op : AddOp} {last : Term}
      (hbefore : DerivesSum front before) (hsign : sign.kind = op.kind)
      (hlast : DerivesTerm back last) : DerivesSum (front ++ sign :: back) (.join before op last)

/-- `DerivesTerm tokens term` says that the tokens are factors with multiplicative operators
between them. -/
inductive DerivesTerm : List Token → Term → Prop
  | factor {tokens : List Token} {last : Factor} (hlast : DerivesFactor tokens last) :
      DerivesTerm tokens (.factor last)
  | join {front back : List Token} {sign : Token} {before : Term} {op : MulOp} {last : Factor}
      (hbefore : DerivesTerm front before) (hsign : sign.kind = op.kind)
      (hlast : DerivesFactor back last) : DerivesTerm (front ++ sign :: back) (.join before op last)

/-- `DerivesFactor tokens factor` says that the tokens are an operand, with at most one minus sign
before it. -/
inductive DerivesFactor : List Token → Factor → Prop
  | plain {tokens : List Token} {operand : Operand} (hoperand : DerivesOperand tokens operand) :
      DerivesFactor tokens (.mk false operand)
  | negated {sign : Token} {tokens : List Token} {operand : Operand} (hsign : sign.kind = .minus)
      (hoperand : DerivesOperand tokens operand) :
      DerivesFactor (sign :: tokens) (.mk true operand)

/-- `DerivesOperand tokens operand` says that the tokens are a number, a variable, a group or a
call. -/
inductive DerivesOperand : List Token → Operand → Prop
  | number {token : Token} (hkind : token.kind = .number) :
      DerivesOperand [token] (.number (Numeral.ofDigits token.text.toList))
  | variable {token : Token} {kind : RefKind} (hkind : token.kind = kind.tokenKind) :
      DerivesOperand [token] (.variable (.ofText kind token.text))
  | group {opening closing : Token} {inside : List Token} {expr : Expr}
      (hopening : opening.kind = .leftParen) (hinside : DerivesExpr inside expr)
      (hclosing : closing.kind = .rightParen) :
      DerivesOperand (opening :: (inside ++ [closing])) (.group expr)
  | call {name opening closing : Token} {inside : List Token} {supplied : Arguments}
      (hname : name.kind = .function) (hopening : opening.kind = .leftParen)
      (hinside : DerivesArguments inside supplied) (hclosing : closing.kind = .rightParen) :
      DerivesOperand (name :: opening :: (inside ++ [closing])) (.call name.text supplied)

/-- `DerivesArguments tokens supplied` says that the tokens are one or more expressions with
commas between them. -/
inductive DerivesArguments : List Token → Arguments → Prop
  | single {tokens : List Token} {only : Expr} (honly : DerivesExpr tokens only) :
      DerivesArguments tokens (.cons only .nil)
  | cons {front back : List Token} {comma : Token} {first : Expr} {rest : Arguments}
      (hfirst : DerivesExpr front first) (hcomma : comma.kind = .comma)
      (hrest : DerivesArguments back rest) :
      DerivesArguments (front ++ comma :: back) (.cons first rest)
end

/-- `DerivesTarget tokens target` says that the tokens are an arrow and a variable named without a
dollar sign, or that there are none. -/
inductive DerivesTarget : List Token → Option VarRef → Prop
  | none : DerivesTarget [] none
  | some {arrow named : Token} {kind : RefKind} (harrow : arrow.kind = .arrow)
      (hplain : kind = .matrix ∨ kind = .scalar) (hnamed : named.kind = kind.tokenKind) :
      DerivesTarget [arrow, named] (some (.ofText kind named.text))

/-- `DerivesLine tokens expr` says that the tokens are a line. -/
inductive DerivesLine : List Token → Expr → Prop
  | mk {front back : List Token} {sum : Sum} {target : Option VarRef}
      (hsum : DerivesSum front sum) (htarget : DerivesTarget back target) :
      DerivesLine (front ++ back) (.mk sum target)

/-! ## From derivations to words -/

/-- A token of a variable is written as the variable that it stands for. -/
theorem Token.Valid.ofText_reads {token : Token} {kind : RefKind} (hvalid : token.Valid)
    (hkind : token.kind = kind.tokenKind) :
    (VarRef.ofText kind token.text).WellFormed ∧
      token.reading = (VarRef.ofText kind token.text).word := by
  have hne : token.kind ≠ .number := by
    rw [hkind]
    cases kind <;> simp [RefKind.tokenKind]
  obtain ⟨ref, href, hwf, hword⟩ :=
    variableOperand_reads hvalid hkind (hvalid.variableOperand_eq hkind)
  cases href
  exact ⟨hwf, (reading_of_ne_number hne).trans hword⟩

mutual
/-- The words of a derivation are those of the tokens. -/
theorem DerivesExpr.reads {tokens : List Token} {expr : Expr} (h : DerivesExpr tokens expr)
    (hreadable : ∀ token ∈ tokens, token.Readable) :
    expr.WellFormedInside ∧ tokens.map Token.reading = expr.words := by
  cases h with
  | mk hsum =>
    obtain ⟨hwf, hwords⟩ := hsum.reads hreadable
    exact ⟨⟨rfl, hwf⟩, hwords⟩

@[inherit_doc DerivesExpr.reads]
theorem DerivesSum.reads {tokens : List Token} {sum : Sum} (h : DerivesSum tokens sum)
    (hreadable : ∀ token ∈ tokens, token.Readable) :
    sum.WellFormed ∧ tokens.map Token.reading = sum.words := by
  cases h with
  | term hlast => exact hlast.reads hreadable
  | @join front back sign before op last hbefore hsign hlast =>
    obtain ⟨hfront, hback⟩ := List.forall_mem_append.1 hreadable
    obtain ⟨hsign', hback⟩ := List.forall_mem_cons.1 hback
    obtain ⟨hwf, hwords⟩ := hbefore.reads hfront
    obtain ⟨hwf', hwords'⟩ := hlast.reads hback
    refine ⟨⟨hwf, hwf'⟩, ?_⟩
    rw [List.map_append, List.map_cons, hwords, hwords',
      hsign'.valid.reading_sign (.addOp op) hsign, Sum.words]

@[inherit_doc DerivesExpr.reads]
theorem DerivesTerm.reads {tokens : List Token} {term : Term} (h : DerivesTerm tokens term)
    (hreadable : ∀ token ∈ tokens, token.Readable) :
    term.WellFormed ∧ tokens.map Token.reading = term.words := by
  cases h with
  | factor hlast => exact hlast.reads hreadable
  | @join front back sign before op last hbefore hsign hlast =>
    obtain ⟨hfront, hback⟩ := List.forall_mem_append.1 hreadable
    obtain ⟨hsign', hback⟩ := List.forall_mem_cons.1 hback
    obtain ⟨hwf, hwords⟩ := hbefore.reads hfront
    obtain ⟨hwf', hwords'⟩ := hlast.reads hback
    refine ⟨⟨hwf, hwf'⟩, ?_⟩
    rw [List.map_append, List.map_cons, hwords, hwords',
      hsign'.valid.reading_sign (.mulOp op) hsign, Term.words]

@[inherit_doc DerivesExpr.reads]
theorem DerivesFactor.reads {tokens : List Token} {factor : Factor}
    (h : DerivesFactor tokens factor) (hreadable : ∀ token ∈ tokens, token.Readable) :
    factor.WellFormed ∧ tokens.map Token.reading = factor.words := by
  cases h with
  | plain hoperand => exact hoperand.reads hreadable
  | negated hsign hoperand =>
    obtain ⟨hsign', hrest⟩ := List.forall_mem_cons.1 hreadable
    obtain ⟨hwf, hwords⟩ := hoperand.reads hrest
    refine ⟨hwf, ?_⟩
    rw [List.map_cons, hwords, hsign'.valid.reading_sign .minus hsign, Factor.words]

@[inherit_doc DerivesExpr.reads]
theorem DerivesOperand.reads {tokens : List Token} {operand : Operand}
    (h : DerivesOperand tokens operand) (hreadable : ∀ token ∈ tokens, token.Readable) :
    operand.WellFormed ∧ tokens.map Token.reading = operand.words := by
  cases h with
  | @number token hkind =>
    have htoken := hreadable token List.mem_cons_self
    refine ⟨Numeral.fits_of_length_le (htoken.short hkind), ?_⟩
    rw [List.map_singleton, Token.reading, if_pos hkind, Operand.words]
  | @«variable» token kind hkind =>
    obtain ⟨hwf, hword⟩ := (hreadable token List.mem_cons_self).valid.ofText_reads hkind
    refine ⟨hwf, ?_⟩
    rw [List.map_singleton, hword, Operand.words]
  | @group opening closing inside expr hopening hinside hclosing =>
    obtain ⟨hopening', hrest⟩ := List.forall_mem_cons.1 hreadable
    obtain ⟨hreadable', hclosing'⟩ := List.forall_mem_append.1 hrest
    obtain ⟨hwf, hwords⟩ := hinside.reads hreadable'
    refine ⟨hwf, ?_⟩
    rw [List.map_cons, List.map_append, hwords, List.map_singleton,
      hopening'.valid.reading_sign .opening hopening,
      (List.forall_mem_singleton.1 hclosing').valid.reading_sign .closing hclosing, Operand.words]
  | @call name opening closing inside supplied hname hopening hinside hclosing =>
    obtain ⟨hname', hrest⟩ := List.forall_mem_cons.1 hreadable
    obtain ⟨hopening', hrest⟩ := List.forall_mem_cons.1 hrest
    obtain ⟨hreadable', hclosing'⟩ := List.forall_mem_append.1 hrest
    obtain ⟨first, rest, rfl, hwf, hwords⟩ := hinside.reads hreadable'
    refine ⟨⟨hname'.valid.admits hname, nofun, hwf⟩, ?_⟩
    rw [List.map_cons, List.map_cons, List.map_append, hwords, List.map_singleton,
      reading_of_ne_number (by simp [hname]), Token.word, hname,
      hopening'.valid.reading_sign .opening hopening,
      (List.forall_mem_singleton.1 hclosing').valid.reading_sign .closing hclosing, Operand.words,
      List.append_assoc]

/-- There is at least one argument, and the words of the arguments are those of the tokens. -/
theorem DerivesArguments.reads {tokens : List Token} {supplied : Arguments}
    (h : DerivesArguments tokens supplied) (hreadable : ∀ token ∈ tokens, token.Readable) :
    ∃ first rest, supplied = .cons first rest ∧ supplied.WellFormed ∧
      tokens.map Token.reading = first.words ++ rest.tailWords := by
  cases h with
  | @single tokens only honly =>
    obtain ⟨hwf, hwords⟩ := honly.reads hreadable
    exact ⟨only, .nil, rfl, ⟨hwf, trivial⟩, by rw [hwords, Arguments.tailWords, List.append_nil]⟩
  | @cons front back comma first rest hfirst hcomma hrest =>
    obtain ⟨hfront, hback⟩ := List.forall_mem_append.1 hreadable
    obtain ⟨hcomma', hback⟩ := List.forall_mem_cons.1 hback
    obtain ⟨hwf, hwords⟩ := hfirst.reads hfront
    obtain ⟨second, more, rfl, hwf', hwords'⟩ := hrest.reads hback
    refine ⟨first, .cons second more, rfl, ⟨hwf, hwf'⟩, ?_⟩
    rw [List.map_append, List.map_cons, hwords, hwords',
      hcomma'.valid.reading_sign .comma hcomma, Arguments.tailWords]
end

/-! ## From words to derivations -/

/-- A token that is written as a well-formed variable stands for that variable. -/
theorem VarRef.WellFormed.eq_ofText {ref : VarRef} {token : Token} (hwf : ref.WellFormed)
    (h : token.reading = ref.word) :
    token.kind = ref.kind.tokenKind ∧ ref = .ofText ref.kind token.text := by
  have hkind : token.kind = ref.kind.tokenKind := kind_eq_of_reading h
  have hne : token.kind ≠ .number := by
    rw [hkind]
    cases ref.kind <;> simp [RefKind.tokenKind]
  rw [reading_of_ne_number hne] at h
  have htext : token.text = ref.text := congrArg Word.text h
  refine ⟨hkind, ?_⟩
  obtain ⟨kind, name⟩ := ref
  cases kind with
  | matrix | scalar | defineMatrix | defineScalar =>
    obtain ⟨char, rfl, -⟩ := hwf
    simp [ofText, htext, text, shownName]
  | defineAnonymous =>
    cases hwf
    rfl

mutual
/-- A well-formed tree is the derivation of tokens with its words. -/
theorem Expr.derives_of_words {tokens : List Token} (expr : Expr) (hwf : expr.WellFormedInside)
    (hwords : tokens.map Token.reading = expr.words) : DerivesExpr tokens expr := by
  obtain ⟨sum, target⟩ := expr
  obtain ⟨rfl, hwf⟩ := hwf
  exact .mk (sum.derives_of_words hwf hwords)

@[inherit_doc Expr.derives_of_words]
theorem Sum.derives_of_words {tokens : List Token} (sum : Sum) (hwf : sum.WellFormed)
    (hwords : tokens.map Token.reading = sum.words) : DerivesSum tokens sum := by
  cases sum with
  | term last => exact .term (last.derives_of_words hwf hwords)
  | join before op last =>
    obtain ⟨front, back, rfl, hfront, hback⟩ := List.map_eq_append_iff.1 hwords
    obtain ⟨sign, behind, rfl, hsign, hbehind⟩ := List.map_eq_cons_iff.1 hback
    exact .join (before.derives_of_words hwf.1 hfront) (kind_eq_of_reading hsign)
      (last.derives_of_words hwf.2 hbehind)

@[inherit_doc Expr.derives_of_words]
theorem Term.derives_of_words {tokens : List Token} (term : Term) (hwf : term.WellFormed)
    (hwords : tokens.map Token.reading = term.words) : DerivesTerm tokens term := by
  cases term with
  | factor last => exact .factor (last.derives_of_words hwf hwords)
  | join before op last =>
    obtain ⟨front, back, rfl, hfront, hback⟩ := List.map_eq_append_iff.1 hwords
    obtain ⟨sign, behind, rfl, hsign, hbehind⟩ := List.map_eq_cons_iff.1 hback
    exact .join (before.derives_of_words hwf.1 hfront) (kind_eq_of_reading hsign)
      (last.derives_of_words hwf.2 hbehind)

@[inherit_doc Expr.derives_of_words]
theorem Factor.derives_of_words {tokens : List Token} (factor : Factor) (hwf : factor.WellFormed)
    (hwords : tokens.map Token.reading = factor.words) : DerivesFactor tokens factor := by
  obtain ⟨negated, operand⟩ := factor
  cases negated with
  | true =>
    obtain ⟨sign, behind, rfl, hsign, hbehind⟩ := List.map_eq_cons_iff.1 hwords
    exact .negated (kind_eq_of_reading hsign) (operand.derives_of_words hwf hbehind)
  | false => exact .plain (operand.derives_of_words hwf hwords)

@[inherit_doc Expr.derives_of_words]
theorem Operand.derives_of_words {tokens : List Token} (operand : Operand)
    (hwf : operand.WellFormed) (hwords : tokens.map Token.reading = operand.words) :
    DerivesOperand tokens operand := by
  cases operand with
  | number value =>
    obtain ⟨token, rfl, hword⟩ := List.map_eq_singleton_iff.1 hwords
    have hkind : token.kind = .number := kind_eq_of_reading hword
    rw [Token.reading, if_pos hkind] at hword
    have hvalue := congrArg (fun word : Word => Numeral.ofDigits word.text.toList) hword
    simp only [Numeral.ofDigits_repr] at hvalue
    rw [← hvalue]
    exact .number hkind
  | «variable» ref =>
    obtain ⟨token, rfl, hword⟩ := List.map_eq_singleton_iff.1 hwords
    obtain ⟨hkind, href⟩ := VarRef.WellFormed.eq_ofText hwf hword
    rw [href]
    exact .variable hkind
  | group expr =>
    obtain ⟨opening, behind, rfl, hopening, hbehind⟩ := List.map_eq_cons_iff.1 hwords
    obtain ⟨inside, closings, rfl, hinside, hclosings⟩ := List.map_eq_append_iff.1 hbehind
    obtain ⟨closing, rfl, hclosing⟩ := List.map_eq_singleton_iff.1 hclosings
    exact .group (kind_eq_of_reading hopening) (expr.derives_of_words hwf hinside)
      (kind_eq_of_reading hclosing)
  | call function supplied =>
    cases supplied with
    | nil => exact absurd rfl hwf.2.1
    | cons first more =>
      obtain ⟨name, behind, rfl, hname, hbehind⟩ := List.map_eq_cons_iff.1 hwords
      obtain ⟨opening, rest, rfl, hopening, hrest⟩ := List.map_eq_cons_iff.1 hbehind
      rw [← List.append_assoc] at hrest
      obtain ⟨inside, closings, rfl, hinside, hclosings⟩ := List.map_eq_append_iff.1 hrest
      obtain ⟨closing, rfl, hclosing⟩ := List.map_eq_singleton_iff.1 hclosings
      have hkind : name.kind = .function := kind_eq_of_reading hname
      have htext : name.text = function := by
        rw [reading_of_ne_number (by simp [hkind])] at hname
        exact congrArg Word.text hname
      rw [← htext]
      exact .call hkind (kind_eq_of_reading hopening)
        (more.derives_of_words hwf.2.2.2 (fun _ => first.derives_of_words hwf.2.2.1) hinside)
        (kind_eq_of_reading hclosing)

/-- Well-formed arguments are the derivation of tokens with their words. -/
theorem Arguments.derives_of_words {tokens : List Token} {first : Expr} (more : Arguments)
    (hwf : more.WellFormed)
    (hfirst : ∀ front : List Token, front.map Token.reading = first.words →
      DerivesExpr front first)
    (hwords : tokens.map Token.reading = first.words ++ more.tailWords) :
    DerivesArguments tokens (.cons first more) := by
  cases more with
  | nil =>
    rw [Arguments.tailWords, List.append_nil] at hwords
    exact .single (hfirst tokens hwords)
  | cons second rest =>
    obtain ⟨front, back, rfl, hfront, hback⟩ := List.map_eq_append_iff.1 hwords
    obtain ⟨comma, behind, rfl, hcomma, hbehind⟩ := List.map_eq_cons_iff.1 hback
    exact .cons (hfirst front hfront) (kind_eq_of_reading hcomma)
      (rest.derives_of_words hwf.2 (fun _ => second.derives_of_words hwf.1) hbehind)
end

/-! ## Lines -/

/-- Different kinds of references have different kinds of tokens. -/
theorem RefKind.tokenKind_injective {kind kind' : RefKind} (h : kind.tokenKind = kind'.tokenKind) :
    kind = kind' := by
  cases kind <;> cases kind' <;> first | rfl | cases h

/-- On tokens that can be written as they are, a tree is the derivation exactly if it is
well-formed, up to its depth, and its words are those of the tokens. -/
theorem derivesLine_iff {tokens : List Token} (hreadable : ∀ token ∈ tokens, token.Readable)
    {expr : Expr} :
    DerivesLine tokens expr ↔
      expr.sum.WellFormed ∧ (∀ ref ∈ expr.target, ref.defines = false ∧ ref.WellFormed) ∧
        tokens.map Token.reading = expr.words := by
  constructor
  · rintro ⟨hsum, htarget⟩
    obtain ⟨hfront, hback⟩ := List.forall_mem_append.1 hreadable
    obtain ⟨hwf, hwords⟩ := hsum.reads hfront
    cases htarget with
    | none => exact ⟨hwf, nofun, by rw [List.append_nil, hwords, Expr.words]⟩
    | @some arrow named kind harrow hplain hnamed =>
      obtain ⟨harrow', hnamed'⟩ := List.forall_mem_cons.1 hback
      have hvalid := (List.forall_mem_singleton.1 hnamed').valid
      obtain ⟨href, hword⟩ := hvalid.ofText_reads hnamed
      refine ⟨hwf, ?_, ?_⟩
      · rintro _ ⟨⟩
        exact ⟨by rcases hplain with rfl | rfl <;> rfl, href⟩
      · rw [List.map_append, List.map_cons, List.map_singleton, hwords, hword,
          harrow'.valid.reading_sign .arrow harrow, Expr.words]
  · rintro ⟨hwf, htarget, hwords⟩
    obtain ⟨sum, target⟩ := expr
    cases target with
    | none =>
      rw [← List.append_nil tokens]
      exact .mk (sum.derives_of_words hwf hwords) .none
    | some ref =>
      obtain ⟨hdefines, href⟩ := htarget ref rfl
      obtain ⟨front, back, rfl, hfront, hback⟩ := List.map_eq_append_iff.1 hwords
      obtain ⟨arrow, after, rfl, harrow, hafter⟩ := List.map_eq_cons_iff.1 hback
      obtain ⟨named, rfl, hnamed⟩ := List.map_eq_singleton_iff.1 hafter
      obtain ⟨hkind, heq⟩ := href.eq_ofText hnamed
      have hplain : ref.kind = .matrix ∨ ref.kind = .scalar := by
        cases href : ref.kind <;> simp [VarRef.defines, href] at hdefines ⊢
      rw [heq]
      exact .mk (sum.derives_of_words hwf hfront)
        (.some (kind_eq_of_reading harrow) hplain hkind)

/-! ## Unambiguity -/

/-- A parser gives one value and leaves one rest. -/
theorem Parser.Gives.unique {α : Type} {bound : Nat} {result : Except Refusal (Parsed α bound)}
    {value value' : α} {rest rest' : List Token} (h : Gives result value rest)
    (h' : Gives result value' rest') : value = value' ∧ rest = rest' := by
  obtain ⟨_, rfl⟩ := h
  obtain ⟨_, heq⟩ := h'
  cases heq
  exact ⟨rfl, rfl⟩

/-- Tokens derive one target at most. -/
theorem DerivesTarget.unique {tokens : List Token} {target target' : Option VarRef}
    (h : DerivesTarget tokens target) (h' : DerivesTarget tokens target') : target = target' := by
  cases h with
  | none =>
    cases h'
    rfl
  | some _ _ hnamed =>
    cases h' with
    | some _ _ hnamed' =>
      obtain rfl := RefKind.tokenKind_injective (hnamed.symm.trans hnamed')
      rfl

/-- A target, or none, stops a sum. -/
theorem DerivesTarget.stopsSum {tokens : List Token} {target : Option VarRef}
    (h : DerivesTarget tokens target) : StopsSum tokens := by
  cases h with
  | none => exact stopsSum_nil
  | some harrow => exact stopsSum_cons (.inr (.inr harrow))

/-- With enough levels, the parser reads the sum of a line and stops at the target. -/
theorem DerivesSum.gives {front back : List Token} {sum : Sum} {target : Option VarRef}
    (hsum : DerivesSum front sum) (htarget : DerivesTarget back target)
    (hreadable : ∀ token ∈ front ++ back, token.Readable) {levels : Nat}
    (hlevels : sum.depth ≤ levels) :
    Gives (exprWithin levels (front ++ back)) (.mk sum none) back := by
  obtain ⟨hfront, -⟩ := List.forall_mem_append.1 hreadable
  obtain ⟨hwf, hwords⟩ := hsum.reads hfront
  exact Expr.gives_of_words (.mk sum none) ⟨rfl, hwf⟩ hlevels hfront hwords htarget.stopsSum

/-- Tokens have at most one derivation, however deep it is. -/
theorem DerivesLine.unique {tokens : List Token} (hreadable : ∀ token ∈ tokens, token.Readable)
    {expr expr' : Expr} (h : DerivesLine tokens expr) (h' : DerivesLine tokens expr') :
    expr = expr' := by
  obtain @⟨front, back, sum, target, hsum, htarget⟩ := h
  generalize htokens : front ++ back = tokens at h' hreadable
  obtain @⟨front', back', sum', target', hsum', htarget'⟩ := h'
  -- the parser is deterministic, so with levels for both it reads both as the same tree
  have hgives := hsum.gives htarget (htokens ▸ hreadable) (Nat.le_max_left _ sum'.depth)
  have hgives' := hsum'.gives htarget' hreadable (Nat.le_max_right sum.depth _)
  rw [htokens] at hgives
  obtain ⟨hsums, rfl⟩ := hgives.unique hgives'
  cases hsums
  rw [htarget.unique htarget']

/-! ## The parser -/

/-- The parser returns the derivation in which groups and calls nest within the limit. -/
theorem line_eq_ok_iff_derives {tokens : List Token}
    (hreadable : ∀ token ∈ tokens, token.Readable) {expr : Expr} :
    Parser.line tokens = .ok expr ↔ DerivesLine tokens expr ∧ expr.depth ≤ nestingLimit := by
  constructor
  · intro h
    obtain ⟨hwf, hwords⟩ := line_reads (fun token htoken => (hreadable token htoken).valid) h
    exact ⟨(derivesLine_iff hreadable).2 ⟨hwf.sum, hwf.target, hwords⟩, hwf.depth⟩
  · rintro ⟨hderives, hdepth⟩
    obtain ⟨hsum, htarget, hwords⟩ := (derivesLine_iff hreadable).1 hderives
    exact Expr.WellFormed.line_eq_ok ⟨hsum, hdepth, htarget⟩ hreadable hwords

/-- The parser accepts exactly the grammar, on tokens that can be written as they are. It returns
a tree if and only if this is a derivation in which groups and calls nest within the limit; a
derivation is the only one and has the words of the tokens; and tokens without one are refused as
no line. -/
theorem Expr.ofTokens_grammar {tokens : List Token}
    (hreadable : ∀ token ∈ beforeEnd tokens, token.Readable) (source : Option String) :
    (∀ expr, Expr.ofTokens tokens source = .ok expr ↔
      DerivesLine (beforeEnd tokens) expr ∧ expr.depth ≤ nestingLimit) ∧
    (∀ expr, DerivesLine (beforeEnd tokens) expr →
      expr.words = (beforeEnd tokens).map Token.reading ∧
        ∀ other, DerivesLine (beforeEnd tokens) other → other = expr) ∧
    ((¬ ∃ expr, DerivesLine (beforeEnd tokens) expr ∧ expr.depth ≤ nestingLimit) →
      ∃ report, Expr.ofTokens tokens source = .error (.report report) ∧
        report.cause.reportClass = .syntactic) := by
  have hok : ∀ expr, Expr.ofTokens tokens source = .ok expr ↔
      Parser.line (beforeEnd tokens) = .ok expr := by
    intro expr
    rw [Expr.ofTokens, ← beforeEnd]
    cases Parser.line (beforeEnd tokens) <;> simp
  refine ⟨fun expr => (hok expr).trans (line_eq_ok_iff_derives hreadable), ?_, ?_⟩
  · intro expr hderives
    exact ⟨((derivesLine_iff hreadable).1 hderives).2.2.symm,
      fun other hother => hother.unique hreadable hderives⟩
  · intro hnone
    cases hparse : Expr.ofTokens tokens source with
    | ok expr =>
      have hderives := (line_eq_ok_iff_derives hreadable).1 ((hok expr).1 hparse)
      exact absurd ⟨expr, hderives⟩ hnone
    | error failure =>
      have hvalid : ∀ token ∈ beforeEnd tokens, token.Valid :=
        fun token htoken => (hreadable token htoken).valid
      rcases Expr.ofTokens_error hvalid hparse with
        ⟨report, rfl, hclass⟩ | ⟨number, hmem, hkind, hlong, -⟩
      · exact ⟨report, rfl, hclass⟩
      · have hshort := (hreadable number hmem).short hkind
        omega

/-- The tokens of `007 * x`, and something behind their end. -/
theorem Expr.ofTokens_grammar_product :
    let tokens : List Token :=
      [⟨.number, "007", 0⟩, ⟨.times, "*", 4⟩, ⟨.scalar, "x", 6⟩, ⟨.endOfInput, "", 7⟩,
        ⟨.comma, ",", 7⟩]
    let tree := Expr.mk (.term (.join (.factor (.mk false (.number 7))) .mul
      (.mk false (.variable ⟨.scalar, some "x"⟩)))) none
    Expr.ofTokens tokens none = .ok tree ∧
      tree.words = [⟨.number, "7"⟩, ⟨.times, "*"⟩, ⟨.scalar, "x"⟩] := by
  intro tokens tree
  have hreadable : ∀ token ∈ beforeEnd tokens, token.Readable := by
    refine List.forall_mem_cons.2 ⟨?_, List.forall_mem_cons.2 ⟨?_, List.forall_mem_singleton.2 ?_⟩⟩
    · exact ⟨⟨by decide, List.all_eq_true.1 rfl⟩, fun _ => by decide⟩
    · exact ⟨rfl, nofun⟩
    · exact ⟨⟨'x', rfl, rfl⟩, nofun⟩
  have hderives : DerivesLine (beforeEnd tokens) tree := by
    have hnumber : Numeral.fits 7 = true := by decide +kernel
    exact (derivesLine_iff hreadable).2 ⟨⟨hnumber, 'x', rfl, rfl⟩, nofun, by decide⟩
  obtain ⟨haccepts, hunique, -⟩ := Expr.ofTokens_grammar hreadable none
  refine ⟨(haccepts tree).2 ⟨hderives, by decide⟩, ?_⟩
  rw [(hunique tree hderives).1]
  rfl

end MatrixCalc
