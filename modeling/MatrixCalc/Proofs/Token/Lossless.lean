import MatrixCalc.Proofs.Token.Scan

/-!
# What a scan covers and where it stops

`Scanned chars tokens pos` says that scanning gets to a position, having passed these tokens. Up
to there the tokens and white space cover the characters (`Scanned.cut`), and cutting the line off
there or later changes nothing (`Scanned.take`). `scan_reaches` says that a scan gets to the end
or to a character that is neither white space nor the start of a token, and
`ofSource_lossless` what this means for a line.
-/

namespace MatrixCalc

/-- A token that ends before some characters ends before any others that start no differently. -/
theorem TokenKind.EndsBefore.of_head? {kind : TokenKind} {rest other : List Char}
    (h : kind.EndsBefore rest) (hhead : ∀ char ∈ other.head?, char ∈ rest.head?) :
    kind.EndsBefore other := by
  cases kind <;> first | exact trivial | exact fun char hchar => h char (hhead char hchar)

/-- Only the end of the input is written with no characters. -/
theorem TokenKind.Admits.length_pos {kind : TokenKind} {chars : List Char} (h : kind.Admits chars)
    (hkind : kind ≠ .endOfInput) : 0 < chars.length := by
  rw [List.length_pos_iff]
  rintro rfl
  cases kind <;> simp [TokenKind.Admits] at h hkind

namespace Token

/-! ## Characters that start a token -/

/-- Whether a token starts with a character when these characters stand behind it. -/
def Starts (first : Char) (rest : List Char) : Prop :=
  first ∈ ['+', '-', '*', '/', '(', ')', ','] ∨ isNumeral first = true ∨ isLetter first = true ∨
    first = '$' ∧ ∃ next ∈ rest.head?, isLetter next = true ∨ next = '$'

/-- The signs are seven characters. -/
theorem signKind?_eq_none_iff {char : Char} :
    signKind? char = none ↔ char ∉ ['+', '-', '*', '/', '(', ')', ','] := by
  unfold signKind?
  split <;> simp_all

/-- Behind a dollar sign a letter or another dollar sign makes a token. -/
theorem definedKind?_eq_none_iff {char : Char} :
    definedKind? char = none ↔ ¬ (isLetter char = true ∨ char = '$') := by
  rw [isLetter_iff]
  unfold definedKind?
  split_ifs <;> simp_all

/-- A dollar sign alone, or before any other character, makes no token. -/
theorem definedLexeme?_eq_none_iff {rest : List Char} :
    definedLexeme? rest = none ↔ ¬ ∃ next ∈ rest.head?, isLetter next = true ∨ next = '$' := by
  cases rest with
  | nil => simp [definedLexeme?]
  | cons next after => simp [definedLexeme?, definedKind?_eq_none_iff]

/-- No token is cut off exactly where none starts. -/
theorem lexeme?_eq_none_iff {first : Char} {rest : List Char} :
    lexeme? first rest = none ↔ ¬ Starts first rest := by
  unfold lexeme? Starts
  cases hsign : signKind? first with
  | some kind =>
    have hmem : first ∈ ['+', '-', '*', '/', '(', ')', ','] := by
      by_contra hnot
      rw [signKind?_eq_none_iff.2 hnot] at hsign
      cases hsign
    simp only [hmem, true_or, not_true, reduceCtorEq]
  | none =>
    have hnot := signKind?_eq_none_iff.1 hsign
    by_cases hnumeral : isNumeral first = true
    · simp [hnumeral]
    by_cases hletter : isLetter first = true
    · simp [hnumeral, hletter]
    by_cases hdollar : first = '$'
    · subst hdollar
      simp [hnumeral, hletter, definedLexeme?_eq_none_iff]
    · simpa [hnumeral, hletter, hdollar] using hnot

/-! ## Positions that a scan gets to -/

/-- Behind a text that starts at a position stands what follows it. -/
theorem drop_of_drop_append {chars text rest : List Char} {pos : Nat}
    (h : chars.drop pos = text ++ rest) : chars.drop (pos + text.length) = rest := by
  rw [← List.drop_drop, h, List.drop_left]

/-- Behind a character at a position stands what follows it. -/
theorem drop_of_drop_cons {chars rest : List Char} {char : Char} {pos : Nat}
    (h : chars.drop pos = char :: rest) : chars.drop (pos + 1) = rest :=
  @drop_of_drop_append _ [char] _ _ h

/-- `Scanned chars tokens pos` says that scanning the characters gets to a position, having passed
white space and these tokens, each as long as it can be. -/
inductive Scanned (chars : List Char) : List Token → Nat → Prop where
  | start : Scanned chars [] 0
  | space {tokens : List Token} {pos : Nat} {char : Char} {rest : List Char}
      (before : Scanned chars tokens pos) (hrest : chars.drop pos = char :: rest)
      (hspace : isSpace char = true) : Scanned chars tokens (pos + 1)
  | token {tokens : List Token} {pos : Nat} {kind : TokenKind} {text rest : List Char}
      (before : Scanned chars tokens pos) (hrest : chars.drop pos = text ++ rest)
      (hkind : kind ≠ .endOfInput) (hadmits : kind.Admits text) (hends : kind.EndsBefore rest) :
      Scanned chars (tokens ++ [⟨kind, String.ofList text, pos⟩]) (pos + text.length)

/-- `BlockedAt chars pos char` says that this character stands there and is neither white space
nor the start of a token. -/
structure BlockedAt (chars : List Char) (pos : Nat) (char : Char) : Prop where
  stands : chars[pos]? = some char
  space : isSpace char = false
  starts : ¬ Starts char (chars.drop (pos + 1))

/-- A blocked position is one of a character. -/
theorem BlockedAt.drop_eq {chars : List Char} {pos : Nat} {char : Char}
    (h : BlockedAt chars pos char) : chars.drop pos = char :: chars.drop (pos + 1) := by
  obtain ⟨hlt, hchar⟩ := List.getElem?_eq_some_iff.1 h.stands
  rw [List.drop_eq_getElem_cons hlt, hchar]

/-- A scan that gets to a blocked position ends there. -/
theorem BlockedAt.scan_eq {chars : List Char} {pos : Nat} {char : Char}
    (h : BlockedAt chars pos char) : scan pos (chars.drop pos) = .error (char, pos) := by
  have hspace : ¬ isSpace char = true := by simp [h.space]
  have hnone := lexeme?_eq_none_iff.2 h.starts
  rw [h.drop_eq, scan, if_neg hspace]
  split
  · rfl
  · next hsome => rw [hnone] at hsome; cases hsome

namespace Scanned

variable {chars : List Char} {tokens : List Token} {pos : Nat}

/-- A scan does not get beyond the end. -/
theorem le_length (h : Scanned chars tokens pos) : pos ≤ chars.length := by
  induction h with
  | start => exact Nat.zero_le _
  | @space tokens pos char rest before hrest hspace ih =>
    have := congrArg List.length hrest
    simp only [List.length_drop, List.length_cons] at this
    omega
  | @token tokens pos kind text rest before hrest hkind hadmits hends ih =>
    have := congrArg List.length hrest
    simp only [List.length_drop, List.length_append] at this
    omega

/-- From a position it gets to, a scan goes on as if the characters before were not there. -/
theorem scan_eq (h : Scanned chars tokens pos) :
    scan 0 chars = (scan pos (chars.drop pos)).map (tokens ++ ·) := by
  induction h with
  | start => cases hscan : scan 0 chars <;> simp [hscan, Except.map]
  | @space tokens pos char rest before hrest hspace ih =>
    rw [ih, hrest, scan_space pos rest hspace, drop_of_drop_cons hrest]
  | @token tokens pos kind text rest before hrest hkind hadmits hends ih =>
    rw [ih, hrest, scan_append pos hkind hadmits hends, drop_of_drop_append hrest]
    cases scan (pos + text.length) rest <;> simp [Except.map]

/-- Cutting the line off behind a position that a scan gets to changes nothing before it. -/
theorem take (h : Scanned chars tokens pos) {count : Nat} (hle : pos ≤ count) :
    Scanned (chars.take count) tokens pos := by
  induction h with
  | start => exact .start
  | @space tokens pos char rest before hrest hspace ih =>
    have hrest' : (chars.take count).drop pos = char :: rest.take (count - pos - 1) := by
      rw [List.drop_take, hrest, List.take_cons (by omega)]
    exact .space (ih (by omega)) hrest' hspace
  | @token tokens pos kind text rest before hrest hkind hadmits hends ih =>
    have hends' : kind.EndsBefore (rest.take (count - pos - text.length)) :=
      hends.of_head? fun char hchar => by
        rw [List.head?_take] at hchar
        split at hchar
        · cases hchar
        · exact hchar
    refine .token (ih (by omega)) ?_ hkind hadmits hends'
    rw [List.drop_take, hrest, List.take_append, List.take_of_length_le (by omega)]

end Scanned

/-- A scan gets to the end or to a blocked position. -/
theorem scan_reaches {chars rest : List Char} {before : List Token} {pos : Nat}
    (h : Scanned chars before pos) (hrest : chars.drop pos = rest) :
    match scan pos rest with
    | .ok tokens => ∃ passed, tokens = passed ++ [⟨.endOfInput, "", (chars.length : Nat)⟩] ∧
        Scanned chars (before ++ passed) chars.length
    | .error (char, stop) => ∃ passed, Scanned chars (before ++ passed) stop ∧
        BlockedAt chars stop char := by
  fun_induction scan pos rest generalizing before with
  | case1 pos =>
    have hlength : pos = chars.length :=
      Nat.le_antisymm h.le_length (List.drop_eq_nil_iff.1 hrest)
    subst hlength
    exact ⟨[], rfl, by rwa [List.append_nil]⟩
  | case2 pos first rest hspace ih =>
    exact ih (.space h hrest hspace) (drop_of_drop_cons hrest)
  | case3 pos first rest hspace hnone =>
    refine ⟨[], by rwa [List.append_nil], ?_, by simpa using hspace, ?_⟩
    · rw [← List.head?_drop, hrest, List.head?_cons]
    · rw [drop_of_drop_cons hrest]
      exact lexeme?_eq_none_iff.1 hnone
  | case4 pos first rest hspace lexeme hlexeme ih =>
    obtain ⟨hkind, hadmits, hsplit, hends⟩ := lexeme?_cut hlexeme
    have hfront : chars.drop pos = (first :: lexeme.tail) ++ lexeme.rest := by
      rw [hrest, hsplit, List.cons_append]
    have hpos : pos + (first :: lexeme.tail).length = pos + 1 + lexeme.tail.length := by
      rw [List.length_cons]
      omega
    have hnext := Scanned.token h hfront hkind hadmits hends
    have hdrop := drop_of_drop_append hfront
    rw [hpos] at hnext hdrop
    have hlater := ih hnext hdrop
    cases hscan : scan (pos + 1 + lexeme.tail.length) lexeme.rest with
    | error failure =>
      rw [hscan] at hlater
      obtain ⟨passed, hreached, hblocked⟩ := hlater
      exact ⟨_ :: passed, by simpa using hreached, hblocked⟩
    | ok later =>
      rw [hscan] at hlater
      obtain ⟨passed, rfl, hreached⟩ := hlater
      exact ⟨_ :: passed, rfl, by simpa using hreached⟩

/-! ## What the tokens cover -/

/-- The position behind a token. -/
def stop (token : Token) : Int :=
  token.pos + token.text.length

/-- `token.StandsAt chars start` says that the characters of a token stand there, fit its kind and
could not be more. -/
structure StandsAt (token : Token) (chars : List Char) (start : Nat) : Prop where
  pos : token.pos = start
  text : (chars.drop start).take token.text.length = token.text.toList
  valid : token.Valid
  ends : token.kind.EndsBefore (chars.drop (start + token.text.length))

/-- `Cut chars tokens pos` says that the tokens stand in the characters one behind the other, and
that up to a position there is only white space between them. -/
structure Cut (chars : List Char) (tokens : List Token) (pos : Nat) : Prop where
  stands : ∀ token ∈ tokens, ∃ start, token.StandsAt chars start
  apart : tokens.Pairwise fun token later => token.pos < later.pos ∧ token.stop ≤ later.pos
  within : ∀ token ∈ tokens, token.pos < pos ∧ token.stop ≤ pos
  between : ∀ index < pos, ∀ char ∈ chars[index]?,
    isSpace char = true ∨ ∃ token ∈ tokens, token.pos ≤ index ∧ index < token.stop

namespace Cut

variable {chars : List Char} {tokens : List Token} {pos : Nat}

/-- A space may be passed over. -/
theorem space {char : Char} {rest : List Char} (h : Cut chars tokens pos)
    (hrest : chars.drop pos = char :: rest) (hspace : isSpace char = true) :
    Cut chars tokens (pos + 1) := by
  refine ⟨h.stands, h.apart, fun token htoken => ?_, fun index hindex other hother => ?_⟩
  · have := h.within token htoken
    omega
  · rcases Nat.lt_succ_iff_lt_or_eq.1 hindex with hlt | rfl
    · exact h.between index hlt other hother
    · rw [← List.head?_drop, hrest, List.head?_cons] at hother
      cases hother
      exact .inl hspace

/-- A token that starts where the scan is may be cut off. -/
theorem token {kind : TokenKind} {text rest : List Char} (h : Cut chars tokens pos)
    (hrest : chars.drop pos = text ++ rest) (hkind : kind ≠ .endOfInput)
    (hadmits : kind.Admits text) (hends : kind.EndsBefore rest) :
    Cut chars (tokens ++ [⟨kind, String.ofList text, pos⟩]) (pos + text.length) := by
  have hpos := hadmits.length_pos hkind
  have hstop : (⟨kind, String.ofList text, pos⟩ : Token).stop = (pos + text.length : Nat) := by
    simp [stop]
  have hstands : (⟨kind, String.ofList text, pos⟩ : Token).StandsAt chars pos := by
    refine ⟨rfl, ?_, by simpa [Valid] using hadmits, ?_⟩
    · simp [hrest]
    · simpa [drop_of_drop_append hrest] using hends
  refine ⟨?_, ?_, ?_, fun index hindex char hchar => ?_⟩
  · rw [List.forall_mem_append, List.forall_mem_singleton]
    exact ⟨h.stands, pos, hstands⟩
  · rw [List.pairwise_append]
    refine ⟨h.apart, List.pairwise_singleton _ _, fun earlier hearlier later hlater => ?_⟩
    cases List.mem_singleton.1 hlater
    exact h.within earlier hearlier
  · rw [List.forall_mem_append, List.forall_mem_singleton, hstop]
    refine ⟨fun earlier hearlier => ?_, ?_⟩
    · have := h.within earlier hearlier
      omega
    · exact ⟨Int.ofNat_lt.2 (by omega), Int.le_refl _⟩
  · rcases Nat.lt_or_ge index pos with hlt | hge
    · rcases h.between index hlt char hchar with hspace | ⟨earlier, hearlier, hcovers⟩
      · exact .inl hspace
      · exact .inr ⟨earlier, List.mem_append_left _ hearlier, hcovers⟩
    · refine .inr ⟨_, List.mem_append_right _ List.mem_cons_self, ?_, ?_⟩
      · exact Int.ofNat_le.2 hge
      · rw [hstop]
        exact Int.ofNat_lt.2 hindex

end Cut

/-- Up to where a scan gets, its tokens and white space cover the characters. -/
theorem Scanned.cut {chars : List Char} {tokens : List Token} {pos : Nat}
    (h : Scanned chars tokens pos) : Cut chars tokens pos := by
  induction h with
  | start => exact ⟨by simp, List.Pairwise.nil, by simp, by simp⟩
  | space before hrest hspace ih => exact ih.space hrest hspace
  | token before hrest hkind hadmits hends ih => exact ih.token hrest hkind hadmits hends

/-- A scan does not meet the end of the input before it ends. -/
theorem Scanned.kind_ne {chars : List Char} {tokens : List Token} {pos : Nat}
    (h : Scanned chars tokens pos) : ∀ token ∈ tokens, token.kind ≠ .endOfInput := by
  induction h with
  | start => simp
  | space before hrest hspace ih => exact ih
  | token before hrest hkind hadmits hends ih =>
    rw [List.forall_mem_append, List.forall_mem_singleton]
    exact ⟨ih, hkind⟩

/-! ## Lines -/

/-- `Lossless chars tokens` says that the tokens, the last of which is the end of the input, stand
in the characters one behind the other, and that only white space is left out. -/
structure Lossless (chars : List Char) (tokens : List Token) : Prop where
  closed : ∃ body, tokens = body ++ [⟨.endOfInput, "", (chars.length : Nat)⟩] ∧
    ∀ token ∈ body, token.kind ≠ .endOfInput
  stands : ∀ token ∈ tokens, ∃ start, token.StandsAt chars start
  apart : tokens.Pairwise fun token later => token.pos < later.pos ∧ token.stop ≤ later.pos
  between : ∀ index : Nat, ∀ char ∈ chars[index]?,
    isSpace char = true ∨ ∃ token ∈ tokens, token.pos ≤ index ∧ index < token.stop

/-- A scan that gets to the end leaves out nothing but white space. -/
theorem Scanned.lossless {chars : List Char} {tokens : List Token}
    (h : Scanned chars tokens chars.length) :
    Lossless chars (tokens ++ [⟨.endOfInput, "", (chars.length : Nat)⟩]) := by
  have hcut := h.cut
  refine ⟨⟨tokens, rfl, h.kind_ne⟩, ?_, ?_, fun index char hchar => ?_⟩
  · rw [List.forall_mem_append, List.forall_mem_singleton]
    exact ⟨hcut.stands, chars.length, rfl, by simp, rfl, trivial⟩
  · rw [List.pairwise_append]
    refine ⟨hcut.apart, List.pairwise_singleton _ _, fun token htoken later hlater => ?_⟩
    cases List.mem_singleton.1 hlater
    exact hcut.within token htoken
  · obtain ⟨hlt, -⟩ := List.getElem?_eq_some_iff.1 hchar
    rcases hcut.between index hlt char hchar with hspace | ⟨token, htoken, hcovers⟩
    · exact .inl hspace
    · exact .inr ⟨token, List.mem_append_left _ htoken, hcovers⟩

/-- `Halts chars tokens pos char` says that a scan gets to a blocked position, past these tokens. -/
structure Halts (chars : List Char) (tokens : List Token) (pos : Nat) (char : Char) : Prop where
  scanned : Scanned chars tokens pos
  blocked : BlockedAt chars pos char

namespace Halts

variable {chars : List Char} {tokens : List Token} {pos : Nat} {char : Char}

/-- A scan that halts reports the character and its position. -/
theorem scan_eq (h : Halts chars tokens pos char) : scan 0 chars = .error (char, pos) := by
  rw [h.scanned.scan_eq, h.blocked.scan_eq]
  rfl

/-- The characters before the blocked position are cut into the tokens passed. -/
theorem scan_take (h : Halts chars tokens pos char) :
    scan 0 (chars.take pos) = .ok (tokens ++ [⟨.endOfInput, "", (pos : Nat)⟩]) := by
  rw [(h.scanned.take le_rfl).scan_eq, List.drop_eq_nil_of_le (List.length_take_le _ _), scan]
  rfl

end Halts

/-- A line is cut into tokens without loss, each as long as it can be. It is refused exactly if
the scan gets to a character that is neither white space nor the start of a token: the first one is
reported, and the characters before it are cut into the tokens passed so far. -/
theorem ofSource_lossless (source : String) :
    (match ofSource source with
      | .ok tokens => Lossless source.toList tokens
      | .error failure => ∃ passed pos char,
          failure = .report ⟨.unrecognized char pos, some ⟨source, pos + 1⟩⟩ ∧
          Halts source.toList passed pos char ∧
          (∀ other before stop, Halts source.toList before stop other → stop = pos) ∧
          ofSource (String.ofList (source.toList.take pos)) =
            .ok (passed ++ [⟨.endOfInput, "", (pos : Nat)⟩])) ∧
      ((∃ failure, ofSource source = .error failure) ↔
        ∃ passed pos char, Halts source.toList passed pos char) := by
  have hreaches := scan_reaches (.start : Scanned source.toList [] 0) List.drop_zero
  unfold ofSource
  cases hscan : scan 0 source.toList with
  | ok tokens =>
    rw [hscan] at hreaches
    obtain ⟨passed, rfl, hreached⟩ := hreaches
    refine ⟨hreached.lossless, ⟨?_, ?_⟩⟩
    · rintro ⟨failure, hfailure⟩
      cases hfailure
    · rintro ⟨passed, pos, char, hhalts⟩
      rw [hhalts.scan_eq] at hscan
      cases hscan
  | error refused =>
    obtain ⟨char, pos⟩ := refused
    rw [hscan] at hreaches
    obtain ⟨passed, hreached, hblocked⟩ := hreaches
    have hhalts : Halts source.toList passed pos char := ⟨hreached, hblocked⟩
    refine ⟨⟨passed, pos, char, rfl, hhalts, fun other before stop h => ?_, ?_⟩,
      ⟨fun _ => ⟨passed, pos, char, hhalts⟩, fun _ => ⟨_, rfl⟩⟩⟩
    · rw [h.scan_eq] at hscan
      cases hscan
      rfl
    · rw [String.toList_ofList, hhalts.scan_take]

end Token

end MatrixCalc
