import MatrixCalc.Proofs.Syntax.Reading

/-!
# Trees and lines

`Expr.parse_text_round_trip`: the trees that lines denote are exactly the well-formed ones, and
each of them is read back from its text. The text of a tree is cut into the words of the tree
(`Sum.scans`), because what stands behind a subtree, a space, a closing parenthesis or a comma,
never extends its last word (`Separates`); the words are then read as the tree.
-/

namespace MatrixCalc

open MatrixCalc.Parser MatrixCalc.Token

/-! ## The words of a tree can be written -/

/-- A word that can be written for its kind, with no zeros in front if it is a number. -/
structure Word.Canonical (word : Word) : Prop where
  kind : word.kind ≠ .endOfInput
  admits : word.kind.Admits word.text.toList
  number : word.kind = .number →
    ∃ value : Nat, Numeral.fits value = true ∧ word.text = value.repr

/-- A word that is no number is canonical if its kind admits it. -/
theorem Word.canonical_of_ne_number {word : Word} (hend : word.kind ≠ .endOfInput)
    (hnumber : word.kind ≠ .number) (hadmits : word.kind.Admits word.text.toList) :
    word.Canonical :=
  ⟨hend, hadmits, fun h => absurd h hnumber⟩

/-- Signs are canonical. -/
theorem Word.IsSign.canonical {word : Word} (h : word.IsSign) : word.Canonical :=
  Word.canonical_of_ne_number h.kind_ne_endOfInput h.kind_ne_number (h.admits_iff.2 rfl)

/-- A well-formed reference is written as a token of its kind. -/
theorem VarRef.WellFormed.admits {ref : VarRef} (hwf : ref.WellFormed) :
    ref.kind.tokenKind.Admits ref.text.toList := by
  obtain ⟨kind, name⟩ := ref
  cases kind with
  | matrix | scalar =>
    obtain ⟨char, rfl, hclass⟩ := hwf
    exact ⟨char, VarRef.toList_text_plain char (by simp), hclass⟩
  | defineMatrix | defineScalar =>
    obtain ⟨char, rfl, hclass⟩ := hwf
    exact ⟨char, VarRef.toList_text_define char (by simp), hclass⟩
  | defineAnonymous => simp [TokenKind.Admits, RefKind.tokenKind, VarRef.text]

/-- The word of a well-formed reference is canonical. -/
theorem VarRef.WellFormed.canonical_word {ref : VarRef} (hwf : ref.WellFormed) :
    ref.word.Canonical := by
  refine Word.canonical_of_ne_number ?_ ?_ hwf.admits
  all_goals
    show ref.kind.tokenKind ≠ _
    cases ref.kind <;> decide

/-- A number within the limit, as it is written, is canonical. -/
theorem canonical_number {value : Nat} (h : Numeral.fits value = true) :
    (Word.mk .number value.repr).Canonical where
  kind := nofun
  admits := ⟨by simp, fun _ => Numeral.isNumeral_of_mem_repr⟩
  number _ := ⟨value, h, rfl⟩

/-- The name of a function is canonical. -/
theorem canonical_function {name : String} (h : FunctionName name) :
    (Word.mk .function name).Canonical :=
  Word.canonical_of_ne_number nofun nofun h

mutual
/-- The words of a well-formed tree can be written. -/
theorem Expr.canonical_words (expr : Expr) (hwf : expr.WellFormedInside) :
    ∀ word ∈ expr.words, word.Canonical := by
  obtain ⟨sum, target⟩ := expr
  obtain ⟨rfl, hwf⟩ := hwf
  exact sum.canonical_words hwf

@[inherit_doc Expr.canonical_words]
theorem Sum.canonical_words (sum : Sum) (hwf : sum.WellFormed) :
    ∀ word ∈ sum.words, word.Canonical := by
  cases sum with
  | term last => exact last.canonical_words hwf
  | join before op last =>
    exact List.forall_mem_append.2 ⟨before.canonical_words hwf.1,
      List.forall_mem_cons.2 ⟨(Word.IsSign.addOp op).canonical, last.canonical_words hwf.2⟩⟩

@[inherit_doc Expr.canonical_words]
theorem Term.canonical_words (term : Term) (hwf : term.WellFormed) :
    ∀ word ∈ term.words, word.Canonical := by
  cases term with
  | factor last => exact last.canonical_words hwf
  | join before op last =>
    exact List.forall_mem_append.2 ⟨before.canonical_words hwf.1,
      List.forall_mem_cons.2 ⟨(Word.IsSign.mulOp op).canonical, last.canonical_words hwf.2⟩⟩

@[inherit_doc Expr.canonical_words]
theorem Factor.canonical_words (factor : Factor) (hwf : factor.WellFormed) :
    ∀ word ∈ factor.words, word.Canonical := by
  obtain ⟨negated, operand⟩ := factor
  cases negated with
  | true =>
    exact List.forall_mem_cons.2 ⟨Word.IsSign.minus.canonical, operand.canonical_words hwf⟩
  | false => exact operand.canonical_words hwf

@[inherit_doc Expr.canonical_words]
theorem Operand.canonical_words (operand : Operand) (hwf : operand.WellFormed) :
    ∀ word ∈ operand.words, word.Canonical := by
  cases operand with
  | number value => exact List.forall_mem_singleton.2 (canonical_number hwf)
  | «variable» ref => exact List.forall_mem_singleton.2 (VarRef.WellFormed.canonical_word hwf)
  | group expr =>
    exact List.forall_mem_cons.2 ⟨Word.IsSign.opening.canonical, List.forall_mem_append.2
      ⟨expr.canonical_words hwf, List.forall_mem_singleton.2 Word.IsSign.closing.canonical⟩⟩
  | call function supplied =>
    cases supplied with
    | nil => exact absurd rfl hwf.2.1
    | cons first more =>
      exact List.forall_mem_cons.2 ⟨canonical_function hwf.1,
        List.forall_mem_cons.2 ⟨Word.IsSign.opening.canonical,
          List.forall_mem_append.2 ⟨first.canonical_words hwf.2.2.1,
            List.forall_mem_append.2 ⟨more.canonical_tailWords hwf.2.2.2,
              List.forall_mem_singleton.2 Word.IsSign.closing.canonical⟩⟩⟩⟩

/-- The words of well-formed arguments can be written. -/
theorem Arguments.canonical_tailWords (supplied : Arguments) (hwf : supplied.WellFormed) :
    ∀ word ∈ supplied.tailWords, word.Canonical := by
  cases supplied with
  | nil => nofun
  | cons first more =>
    exact List.forall_mem_cons.2 ⟨Word.IsSign.comma.canonical, List.forall_mem_append.2
      ⟨first.canonical_words hwf.1, more.canonical_tailWords hwf.2⟩⟩
end

/-! ## The text of a tree is cut into its words -/

/-- What may stand behind a subtree in a text: the end, a space, a parenthesis or a comma. None
of these makes the last word longer. -/
def Separates (rest : List Char) : Prop :=
  ∀ char ∈ rest.head?, char = ' ' ∨ char = ')' ∨ char = ','

/-- A space separates. -/
theorem separates_space (chars : List Char) : Separates (' ' :: chars) := by
  intro char hchar
  cases hchar
  exact .inl rfl

/-- A closing parenthesis separates. -/
theorem separates_closing (chars : List Char) : Separates (')' :: chars) := by
  intro char hchar
  cases hchar
  exact .inr (.inl rfl)

/-- Further arguments separate by their comma, and where there are none, what follows them does. -/
theorem Arguments.separates_tailText (supplied : Arguments) {rest : List Char}
    (hrest : Separates rest) : Separates (supplied.tailText.toList ++ rest) := by
  cases supplied with
  | nil => exact hrest
  | cons first more =>
    intro char hchar
    obtain rfl : ',' = char := by simpa [Arguments.tailText] using hchar
    exact .inr (.inr rfl)

/-- Every token ends before what separates. -/
theorem Separates.endsBefore {rest : List Char} (h : Separates rest) (kind : TokenKind) :
    kind.EndsBefore rest := by
  refine kind.endsBefore_of_head? fun char hchar => ?_
  rcases h char hchar with rfl | rfl | rfl <;> decide

/-- A word is cut off before a separator. -/
theorem Word.Canonical.scans {word : Word} (h : word.Canonical) {rest : List Char}
    (hrest : Separates rest) : Scans word.text.toList [word] rest :=
  Scans.word h.kind h.admits (hrest.endsBefore _)

/-- A word of a kind that is always as long as it can be is cut off before anything. -/
theorem Word.Canonical.scans_of_ends {word : Word} (h : word.Canonical) {rest : List Char}
    (hends : word.kind.EndsBefore rest) : Scans word.text.toList [word] rest :=
  Scans.word h.kind h.admits hends

/-- Two parts of a text joined by an operator between spaces. -/
theorem Scans.joined {left right rest : List Char} {before after : List Word} {op : Word}
    (hleft : ∀ rest, Separates rest → Scans left before rest) (hop : op.Canonical)
    (hright : Scans right after rest) :
    Scans (left ++ (' ' :: (op.text.toList ++ ' ' :: right))) (before ++ op :: after) rest := by
  have hop' := hop.scans (separates_space (right ++ rest))
  exact (hleft _ (separates_space _)).append
    ((Scans.space _).append (hop'.append ((Scans.space _).append hright)))

/-- The text of an operand does not make an arrow of a minus sign before it. -/
theorem Operand.head_text_ne (operand : Operand) (hwf : operand.WellFormed) (rest : List Char) :
    ∀ char ∈ (operand.text.toList ++ rest).head?, char ≠ '>' := by
  rintro char hchar rfl
  cases operand with
  | number value =>
    obtain ⟨first, others, hcons⟩ := List.exists_cons_of_ne_nil
      (canonical_number hwf).admits.1
    have hfirst := (canonical_number hwf).admits.2 first (by rw [hcons]; exact List.mem_cons_self)
    rw [Operand.text, Numeral.toText_natCast] at hchar
    simp only [hcons, List.cons_append, List.head?_cons, Option.mem_def, Option.some.injEq]
      at hchar
    rw [hchar] at hfirst
    exact absurd hfirst (by decide)
  | «variable» ref =>
    have hadmits := VarRef.WellFormed.admits hwf
    rw [Operand.text] at hchar
    cases hkind : ref.kind with
    | matrix | scalar | defineMatrix | defineScalar =>
      rw [hkind] at hadmits
      obtain ⟨letter, hletter, hclass⟩ := hadmits
      rw [hletter] at hchar
      cases hchar
      try exact absurd hclass (by decide)
    | defineAnonymous =>
      rw [hkind] at hadmits
      rw [show ref.text.toList = ['$', '$'] from hadmits] at hchar
      cases hchar
  | group expr => simp [Operand.text] at hchar
  | call function supplied =>
    obtain ⟨⟨hlength, hletters⟩, -, -⟩ := hwf
    obtain ⟨first, others, hcons⟩ : ∃ first others, function.toList = first :: others :=
      List.exists_cons_of_length_pos (by omega)
    have hfirst := hletters first (by rw [hcons]; exact List.mem_cons_self)
    have hhead : first = '>' := by
      cases supplied <;> simpa [Operand.text, hcons] using hchar
    rw [hhead] at hfirst
    exact absurd hfirst (by decide)

mutual
/-- The text of an expression inside a group or call is cut into its words. -/
theorem Expr.scans (expr : Expr) (hwf : expr.WellFormedInside) {rest : List Char}
    (hrest : Separates rest) : Scans expr.text.toList expr.words rest := by
  obtain ⟨sum, target⟩ := expr
  obtain ⟨rfl, hwf⟩ := hwf
  exact sum.scans hwf hrest

/-- The text of a sum is cut into its words. -/
theorem Sum.scans (sum : Sum) (hwf : sum.WellFormed) {rest : List Char}
    (hrest : Separates rest) : Scans sum.text.toList sum.words rest := by
  cases sum with
  | term last => exact last.scans hwf hrest
  | join before op last =>
    have hjoined := Scans.joined (fun _ h => before.scans hwf.1 h) (Word.IsSign.addOp op).canonical
      (last.scans hwf.2 hrest)
    simpa [Sum.text, Sum.words, AddOp.word] using hjoined

/-- The text of a term is cut into its words. -/
theorem Term.scans (term : Term) (hwf : term.WellFormed) {rest : List Char}
    (hrest : Separates rest) : Scans term.text.toList term.words rest := by
  cases term with
  | factor last => exact last.scans hwf hrest
  | join before op last =>
    have hjoined := Scans.joined (fun _ h => before.scans hwf.1 h) (Word.IsSign.mulOp op).canonical
      (last.scans hwf.2 hrest)
    simpa [Term.text, Term.words, MulOp.word] using hjoined

/-- The text of a factor is cut into its words. -/
theorem Factor.scans (factor : Factor) (hwf : factor.WellFormed) {rest : List Char}
    (hrest : Separates rest) : Scans factor.text.toList factor.words rest := by
  obtain ⟨negated, operand⟩ := factor
  cases negated with
  | true =>
    -- there is no space behind this sign, so it must not meet a `>`
    have hminus : Scans "-".toList [.minus] (operand.text.toList ++ rest) :=
      Word.IsSign.minus.canonical.scans_of_ends (operand.head_text_ne hwf rest)
    rw [Factor.text, String.toList_append]
    exact hminus.append (operand.scans hwf hrest)
  | false => exact operand.scans hwf hrest

/-- The text of an operand is cut into its words. -/
theorem Operand.scans (operand : Operand) (hwf : operand.WellFormed) {rest : List Char}
    (hrest : Separates rest) : Scans operand.text.toList operand.words rest := by
  cases operand with
  | number value =>
    rw [Operand.text, Numeral.toText_natCast]
    exact (canonical_number hwf).scans hrest
  | «variable» ref => exact (VarRef.WellFormed.canonical_word hwf).scans hrest
  | group expr =>
    have hclosing : Scans [')'] [.closing] rest :=
      Word.IsSign.closing.canonical.scans_of_ends trivial
    have hgroup := (Word.IsSign.opening.canonical.scans_of_ends trivial).append
      ((expr.scans hwf (separates_closing rest)).append hclosing)
    simpa [Operand.text, Operand.words, Word.opening, Word.closing] using hgroup
  | call function supplied =>
    cases supplied with
    | nil => exact absurd rfl hwf.2.1
    | cons first more =>
      have hclosing : Scans [')'] [.closing] rest :=
        Word.IsSign.closing.canonical.scans_of_ends trivial
      have hmore : Scans (more.tailText.toList ++ [')']) (more.tailWords ++ [.closing]) rest :=
        (more.scans hwf.2.2.2 (separates_closing rest)).append hclosing
      have hfirst : Scans (first.text.toList ++ (more.tailText.toList ++ [')']))
          (first.words ++ (more.tailWords ++ [.closing])) rest := by
        refine (first.scans hwf.2.2.1 ?_).append hmore
        rw [List.append_assoc]
        exact more.separates_tailText (separates_closing rest)
      have hopening : Scans ('(' :: (first.text.toList ++ (more.tailText.toList ++ [')'])))
          (.opening :: (first.words ++ (more.tailWords ++ [.closing]))) rest :=
        (Word.IsSign.opening.canonical.scans_of_ends trivial).append hfirst
      have hfunction := ((canonical_function hwf.1).scans_of_ends (by rintro _ ⟨⟩; rfl)).append
        hopening
      simpa [Operand.text, Operand.words] using hfunction

/-- The text of arguments behind the first is cut into their words. -/
theorem Arguments.scans (supplied : Arguments) (hwf : supplied.WellFormed) {rest : List Char}
    (hrest : Separates rest) : Scans supplied.tailText.toList supplied.tailWords rest := by
  cases supplied with
  | nil => exact Scans.nil rest
  | cons first more =>
    have hfirst : Scans (first.text.toList ++ more.tailText.toList)
        (first.words ++ more.tailWords) rest :=
      (first.scans hwf.1 (more.separates_tailText hrest)).append (more.scans hwf.2 hrest)
    have hspace : Scans (' ' :: (first.text.toList ++ more.tailText.toList))
        (first.words ++ more.tailWords) rest :=
      (Scans.space _).append hfirst
    have hcomma := (Word.IsSign.comma.canonical.scans_of_ends trivial).append hspace
    simpa [Arguments.tailText, Arguments.tailWords, Word.comma] using hcomma
end

/-! ## Lines -/

/-- The end of the text separates. -/
theorem separates_nil : Separates [] := nofun

/-- The words of a well-formed line can be written. -/
theorem Expr.WellFormed.canonical_words {expr : Expr} (hwf : expr.WellFormed) :
    ∀ word ∈ expr.words, word.Canonical := by
  obtain ⟨sum, target⟩ := expr
  cases target with
  | none => exact sum.canonical_words hwf.sum
  | some ref =>
    exact List.forall_mem_append.2 ⟨sum.canonical_words hwf.sum, List.forall_mem_cons.2
      ⟨Word.IsSign.arrow.canonical, List.forall_mem_singleton.2
        (hwf.target ref rfl).2.canonical_word⟩⟩

/-- The text of a well-formed line is cut into its words. -/
theorem Expr.WellFormed.scans {expr : Expr} (hwf : expr.WellFormed) :
    Scans expr.text.toList expr.words [] := by
  obtain ⟨sum, target⟩ := expr
  cases target with
  | none => exact sum.scans hwf.sum separates_nil
  | some ref =>
    have htarget := (hwf.target ref rfl).2.canonical_word.scans separates_nil
    have hjoined :=
      Scans.joined (fun _ h => sum.scans hwf.sum h) Word.IsSign.arrow.canonical htarget
    simpa [Expr.text, Expr.words, Word.arrow, VarRef.word] using hjoined

/-- A token that is written like a word of a tree is read as this word. -/
theorem Word.Canonical.readable {token : Token} (h : token.word.Canonical) :
    token.Readable ∧ token.reading = token.word := by
  by_cases hkind : token.kind = .number
  · obtain ⟨value, hfits, htext : token.text = value.repr⟩ := h.number hkind
    refine ⟨⟨h.admits, fun _ => by rw [htext]; exact Numeral.length_repr_le hfits⟩, ?_⟩
    rw [Token.reading, if_pos hkind, Token.word, hkind, htext, Numeral.ofDigits_repr]
  · exact ⟨⟨h.admits, fun hnumber => absurd hnumber hkind⟩, Token.reading_of_ne_number hkind⟩

/-- A token that is read as a variable gives this target. -/
theorem target_gives_of_reading {token : Token} {ref : VarRef} (hdefines : ref.defines = false)
    (hwf : ref.WellFormed) (h : token.reading = ref.word) :
    Gives (target [token]) ref [] := by
  have hkind : token.kind = ref.kind.tokenKind := kind_eq_of_reading h
  obtain ⟨kind, name⟩ := ref
  cases kind with
  | matrix | scalar =>
    obtain ⟨char, rfl, -⟩ := hwf
    rw [Token.reading_of_ne_number (by rw [hkind]; exact nofun)] at h
    have htext : token.text = String.singleton char := congrArg Word.text h
    refine target_gives.2 ⟨token, rfl, ?_⟩
    rw [htext]
    first
    | exact .inl ⟨hkind, rfl⟩
    | exact .inr ⟨hkind, rfl⟩
  | defineMatrix | defineScalar | defineAnonymous => cases hdefines

/-- Tokens that are read as the words of a well-formed line are parsed as this line. -/
theorem Expr.WellFormed.line_eq_ok {expr : Expr} (hwf : expr.WellFormed) {tokens : List Token}
    (hreadable : ∀ token ∈ tokens, token.Readable)
    (hwords : tokens.map Token.reading = expr.words) : Parser.line tokens = .ok expr := by
  obtain ⟨sum, target⟩ := expr
  have hinside : (Expr.mk sum none).WellFormedInside := ⟨rfl, hwf.sum⟩
  cases target with
  | none =>
    have hgives : Gives (exprWithin nestingLimit (tokens ++ [])) (.mk sum none) [] :=
      Expr.gives_of_words _ hinside hwf.depth hreadable hwords stopsSum_nil
    rw [List.append_nil] at hgives
    exact line_eq_ok_iff.2 ⟨_, [], hgives, .inl ⟨rfl, rfl⟩⟩
  | some ref =>
    -- the parser reads the words of the sum and stops at the arrow
    obtain ⟨body, behind, rfl, hbody, hbehind⟩ := List.map_eq_append_iff.1 hwords
    obtain ⟨arrow, after, rfl, harrow, hafter⟩ := List.map_eq_cons_iff.1 hbehind
    obtain ⟨named, rfl, hnamed⟩ := List.map_eq_singleton_iff.1 hafter
    have hgives : Gives (exprWithin nestingLimit (body ++ [arrow, named])) (.mk sum none)
        [arrow, named] :=
      Expr.gives_of_words _ hinside hwf.depth
        (List.forall_mem_append.1 hreadable).1 hbody
        (stopsSum_cons (.inr (.inr (kind_eq_of_reading harrow))))
    refine line_eq_ok_iff.2 ⟨_, [arrow, named], hgives,
      .inr ⟨arrow, [named], ref, rfl, kind_eq_of_reading harrow, ?_, rfl⟩⟩
    exact target_gives_of_reading (hwf.target ref rfl).1 (hwf.target ref rfl).2 hnamed

/-- A line is parsed by parsing its tokens, without the token for the end of the input. -/
theorem Expr.parse_eq_ok_iff {source : String} {body : List Token} {last : Token} {expr : Expr}
    (hscan : scan 0 source.toList = .ok (body ++ [last]))
    (hbody : ∀ token ∈ body, token.kind ≠ .endOfInput) (hlast : last.kind = .endOfInput) :
    Expr.parse source = .ok expr ↔ Parser.line body = .ok expr := by
  have htake : (body ++ [last]).takeWhile (fun token => token.kind ≠ .endOfInput) = body :=
    takeWhile_append_of_stop (by simpa using hbody) (by simpa using hlast)
  have hsource : Token.ofSource source = .ok (body ++ [last]) := by
    rw [Token.ofSource, hscan]
  rw [Expr.parse, hsource]
  show Expr.ofTokens (body ++ [last]) (some source) = .ok expr ↔ _
  rw [Expr.ofTokens, htake]
  cases Parser.line body <;> simp

/-- A well-formed line is read back from its text. -/
theorem Expr.WellFormed.parse_text {expr : Expr} (hwf : expr.WellFormed) :
    Expr.parse expr.text = .ok expr := by
  obtain ⟨tokens, hwords, hscan⟩ := hwf.scans.scan_eq 0
  have hcanonical : ∀ token ∈ tokens, token.word.Canonical := fun token htoken =>
    hwf.canonical_words token.word (hwords ▸ List.mem_map_of_mem htoken)
  have hreading : tokens.map Token.reading = expr.words := by
    rw [← hwords]
    exact List.map_congr_left fun token htoken => (hcanonical token htoken).readable.2
  have hline := hwf.line_eq_ok (fun token htoken => (hcanonical token htoken).readable.1) hreading
  exact (Expr.parse_eq_ok_iff hscan (fun token htoken => (hcanonical token htoken).kind) rfl).2
    hline

/-- The target of a line is a variable named without a dollar sign. -/
theorem target_reads {tokens : List Token} {ref : VarRef}
    (hvalid : ∀ token ∈ tokens, token.Valid) (h : Gives (target tokens) ref []) :
    ref.defines = false ∧ ref.WellFormed ∧ tokens.map Token.reading = [ref.word] := by
  obtain ⟨token, rfl, hcase⟩ := target_gives.1 h
  have hvalid' := hvalid token List.mem_cons_self
  rcases hcase with ⟨hkind, rfl⟩ | ⟨hkind, rfl⟩
  all_goals
    obtain ⟨char, hchar, hclass⟩ := hvalid'.admits hkind
    refine ⟨rfl, ⟨char, congrArg some (String.toList_inj.1 (by simpa using hchar)), hclass⟩, ?_⟩
    rw [List.map_singleton, Token.reading_of_ne_number (by simp [hkind]), Token.word, hkind]
    rfl

/-- Only well-formed lines are parsed, by using up their words. -/
theorem line_reads {tokens : List Token} {expr : Expr} (hvalid : ∀ token ∈ tokens, token.Valid)
    (h : Parser.line tokens = .ok expr) :
    expr.WellFormed ∧ tokens.map Token.reading = expr.words := by
  obtain ⟨inside, left, hgives, hend⟩ := line_eq_ok_iff.1 h
  obtain ⟨used, rfl, hwords, hinside, hdepth⟩ := exprWithin_reads nestingLimit hvalid hgives
  obtain ⟨sum, target⟩ := inside
  obtain ⟨rfl, hsum⟩ := hinside
  rcases hend with ⟨rfl, rfl⟩ | ⟨arrow, after, ref, rfl, harrow, htarget, rfl⟩
  · exact ⟨⟨hsum, hdepth, nofun⟩, by rw [List.append_nil, hwords]⟩
  · obtain ⟨harrow', hafter⟩ := List.forall_mem_cons.1 (List.forall_mem_append.1 hvalid).2
    obtain ⟨hdefines, href, hword⟩ := target_reads hafter htarget
    refine ⟨⟨hsum, hdepth, ?_⟩, ?_⟩
    · rintro _ ⟨⟩
      exact ⟨hdefines, href⟩
    · rw [List.map_append, List.map_cons, hwords, hword, harrow'.reading_sign .arrow harrow]
      rfl

/-- Only well-formed lines are parsed. -/
theorem Expr.wellFormed_of_parse {source : String} {expr : Expr}
    (h : Expr.parse source = .ok expr) : expr.WellFormed := by
  cases hscan : scan 0 source.toList with
  | error failure =>
    rw [Expr.parse, Token.ofSource, hscan] at h
    cases h
  | ok tokens =>
    obtain ⟨body, rfl, hbody⟩ := scan_ok hscan
    have hline := (Expr.parse_eq_ok_iff hscan (fun token htoken => (hbody token htoken).2) rfl).1 h
    exact (line_reads (fun token htoken => (hbody token htoken).1) hline).1

/-! ## Writing -/

mutual
/-- The numbers in a well-formed tree keep to the digit limit. -/
theorem Expr.fits_of_wellFormedInside (expr : Expr) (hwf : expr.WellFormedInside) :
    expr.fits = true := by
  obtain ⟨sum, target⟩ := expr
  exact sum.fits_of_wellFormed hwf.2

@[inherit_doc Expr.fits_of_wellFormedInside]
theorem Sum.fits_of_wellFormed (sum : Sum) (hwf : sum.WellFormed) : sum.fits = true := by
  cases sum with
  | term last => exact last.fits_of_wellFormed hwf
  | join before op last =>
    exact Bool.and_eq_true_iff.2 ⟨before.fits_of_wellFormed hwf.1, last.fits_of_wellFormed hwf.2⟩

@[inherit_doc Expr.fits_of_wellFormedInside]
theorem Term.fits_of_wellFormed (term : Term) (hwf : term.WellFormed) : term.fits = true := by
  cases term with
  | factor last => exact last.fits_of_wellFormed hwf
  | join before op last =>
    exact Bool.and_eq_true_iff.2 ⟨before.fits_of_wellFormed hwf.1, last.fits_of_wellFormed hwf.2⟩

@[inherit_doc Expr.fits_of_wellFormedInside]
theorem Factor.fits_of_wellFormed (factor : Factor) (hwf : factor.WellFormed) :
    factor.fits = true := by
  obtain ⟨negated, operand⟩ := factor
  exact operand.fits_of_wellFormed hwf

@[inherit_doc Expr.fits_of_wellFormedInside]
theorem Operand.fits_of_wellFormed (operand : Operand) (hwf : operand.WellFormed) :
    operand.fits = true := by
  cases operand with
  | number value => exact hwf
  | «variable» ref => rfl
  | group expr => exact expr.fits_of_wellFormedInside hwf
  | call function supplied => exact supplied.fits_of_wellFormed hwf.2.2

@[inherit_doc Expr.fits_of_wellFormedInside]
theorem Arguments.fits_of_wellFormed (supplied : Arguments) (hwf : supplied.WellFormed) :
    supplied.fits = true := by
  cases supplied with
  | nil => rfl
  | cons first more =>
    exact Bool.and_eq_true_iff.2
      ⟨first.fits_of_wellFormedInside hwf.1, more.fits_of_wellFormed hwf.2⟩
end

/-- A well-formed expression can be written. -/
theorem Expr.WellFormed.write_eq_ok {expr : Expr} (hwf : expr.WellFormed) :
    expr.write = .ok expr.text := by
  obtain ⟨sum, target⟩ := expr
  exact if_pos (sum.fits_of_wellFormed hwf.sum)

/-! ## The round trip -/

/-- The lines that are parsed are exactly the well-formed ones; each of them has a text, which is
parsed as the line again, so that no two of them have the same text. -/
theorem Expr.parse_text_round_trip :
    (∀ source expr, Expr.parse source = .ok expr → expr.WellFormed) ∧
      (∀ expr : Expr, expr.WellFormed →
        ∃ text, expr.write = .ok text ∧ Expr.parse text = .ok expr) ∧
      (∀ source source' expr expr', Expr.parse source = .ok expr →
        Expr.parse source' = .ok expr' → expr.write = expr'.write → expr = expr') := by
  refine ⟨fun source expr h => wellFormed_of_parse h, fun expr hwf => ?_, ?_⟩
  · exact ⟨expr.text, hwf.write_eq_ok, hwf.parse_text⟩
  · intro source source' expr expr' h h' hwrite
    have hwf := wellFormed_of_parse h
    have hwf' := wellFormed_of_parse h'
    rw [hwf.write_eq_ok, hwf'.write_eq_ok, Except.ok.injEq] at hwrite
    have hparse := hwf.parse_text
    rw [hwrite, hwf'.parse_text] at hparse
    exact (Except.ok.inj hparse).symm

/-- A line with a minus sign, a group, a request and a target. -/
theorem Expr.parse_text_round_trip_sample :
    let tree := Expr.mk (.term (.join (.factor (.mk true (.number 2))) .mul
      (.mk false (.group (.mk (.join (.term (.factor (.mk false (.variable ⟨.matrix, some "A"⟩))))
        .add (.factor (.mk false (.variable ⟨.defineMatrix, some "B"⟩)))) none)))))
      (some ⟨.matrix, some "C"⟩)
    tree.WellFormed ∧ Expr.parse "-2 * (A + $B) -> C" = .ok tree := by
  intro tree
  have hwf : tree.WellFormed := by
    have hnumber : Numeral.fits 2 = true := by decide +kernel
    refine ⟨⟨hnumber, rfl, ⟨'A', rfl, rfl⟩, 'B', rfl, rfl⟩, by decide, ?_⟩
    rintro _ ⟨⟩
    exact ⟨rfl, 'C', rfl, rfl⟩
  obtain ⟨text, hwrite, hparse⟩ := Expr.parse_text_round_trip.2.1 tree hwf
  have htext : text = "-2 * (A + $B) -> C" := by
    have hfits : tree.fits = true := by decide +kernel
    rw [Expr.write, if_pos hfits, Except.ok.injEq] at hwrite
    rw [← hwrite]
    decide +kernel
  rw [htext] at hparse
  exact ⟨hwf, hparse⟩

end MatrixCalc
