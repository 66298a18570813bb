import MatrixCalc.Proofs.Token.Lexeme

/-!
# Scanning token by token

`scan_append` scans past a token at the front, `scan_ok` describes what a successful scan
returns: tokens that can be written as they are, then the token for the end of the input. A
`Word` is a token without its position. `Scans chars words rest` says that the characters are cut
into these words wherever they stand, if `rest` follows; such statements compose
(`Scans.append`).
-/

namespace MatrixCalc

/-- A token without its position. -/
structure Word where
  kind : TokenKind
  text : String
  deriving DecidableEq, Repr

namespace Token

/-- A token without its position. -/
def word (token : Token) : Word :=
  ⟨token.kind, token.text⟩

/-- The spaces between tokens are four characters. -/
theorem isSpace_iff {char : Char} :
    isSpace char = true ↔ char = ' ' ∨ char = '\t' ∨ char = '\n' ∨ char = '\r' := by
  simp [isSpace, or_assoc]

/-- White space starts no token. -/
theorem lexeme?_eq_none_of_isSpace {char : Char} (rest : List Char) (h : isSpace char = true) :
    lexeme? char rest = none := by
  rcases isSpace_iff.1 h with rfl | rfl | rfl | rfl <;> rfl

/-- A space is passed over. -/
theorem scan_space (pos : Nat) {char : Char} (rest : List Char) (h : isSpace char = true) :
    scan pos (char :: rest) = scan (pos + 1) rest := by
  rw [scan, if_pos h]

/-- A token at the front is cut off, and the scan goes on behind it. -/
theorem scan_lexeme (pos : Nat) {first : Char} {rest : List Char} {lexeme : Lexeme}
    (h : lexeme? first rest = some lexeme) :
    scan pos (first :: rest) = (scan (pos + 1 + lexeme.tail.length) lexeme.rest).map
      (⟨lexeme.kind, String.ofList (first :: lexeme.tail), pos⟩ :: ·) := by
  have hspace : ¬ isSpace first = true := fun hspace => by
    rw [lexeme?_eq_none_of_isSpace rest hspace] at h
    cases h
  rw [scan, if_neg hspace]
  split
  · next hnone => rw [hnone] at h; cases h
  · next found hfound =>
    rw [hfound] at h
    cases h
    rfl

/-- Scanning past a token that is written at the front. -/
theorem scan_append (pos : Nat) {kind : TokenKind} {chars rest : List Char}
    (hkind : kind ≠ .endOfInput) (hadmits : kind.Admits chars) (hends : kind.EndsBefore rest) :
    scan pos (chars ++ rest) = (scan (pos + chars.length) rest).map
      (⟨kind, String.ofList chars, pos⟩ :: ·) := by
  cases chars with
  | nil => cases kind <;> simp [TokenKind.Admits] at hadmits hkind
  | cons first tail =>
    have hpos : pos + (tail.length + 1) = pos + 1 + tail.length := by omega
    rw [List.cons_append, scan_lexeme pos (lexeme?_append hkind hadmits hends), List.length_cons,
      hpos]

/-- A successful scan returns tokens that can be written as they are, and then the end. -/
theorem scan_ok {pos : Nat} {chars : List Char} {tokens : List Token}
    (h : scan pos chars = .ok tokens) :
    ∃ body, tokens = body ++ [⟨.endOfInput, "", (pos + chars.length : Nat)⟩] ∧
      ∀ token ∈ body, token.Valid ∧ token.kind ≠ .endOfInput := by
  fun_induction scan pos chars generalizing tokens with
  | case1 pos =>
    cases h
    exact ⟨[], rfl, by simp⟩
  | case2 pos first rest hspace ih =>
    obtain ⟨body, rfl, hbody⟩ := ih h
    refine ⟨body, ?_, hbody⟩
    rw [List.length_cons, Nat.add_right_comm, Nat.add_assoc]
  | case3 pos first rest hspace hnone => cases h
  | case4 pos first rest hspace lexeme hlexeme ih =>
    obtain ⟨hkind, hadmits, hsplit, -⟩ := lexeme?_cut hlexeme
    cases hscan : scan (pos + 1 + lexeme.tail.length) lexeme.rest with
    | error failure => rw [hscan] at h; cases h
    | ok later =>
      rw [hscan] at h
      cases h
      obtain ⟨body, rfl, hbody⟩ := ih hscan
      have hlength : pos + 1 + lexeme.tail.length + lexeme.rest.length =
          pos + (first :: rest).length := by
        rw [hsplit, List.length_cons, List.length_append]
        omega
      refine ⟨⟨lexeme.kind, String.ofList (first :: lexeme.tail), pos⟩ :: body, ?_, ?_⟩
      · rw [hlength]
        rfl
      · rintro token (_ | ⟨_, htoken⟩)
        · exact ⟨by simpa [Valid] using hadmits, hkind⟩
        · exact hbody token htoken

end Token

/-! ## Words in a row -/

/-- `Scans chars words rest` says that, with `rest` behind them, the characters are cut into these
words, whatever their position. -/
def Scans (chars : List Char) (words : List Word) (rest : List Char) : Prop :=
  ∀ pos, ∃ tokens : List Token, tokens.map Token.word = words ∧
    Token.scan pos (chars ++ rest) = (Token.scan (pos + chars.length) rest).map (tokens ++ ·)

namespace Scans

/-- No characters are scanned as no words. -/
theorem nil (rest : List Char) : Scans [] [] rest := by
  intro pos
  refine ⟨[], rfl, ?_⟩
  cases hscan : Token.scan pos rest <;> simp [hscan, Except.map]

/-- What is scanned before what follows it is scanned in a row. -/
theorem append {left right rest : List Char} {before after : List Word}
    (hleft : Scans left before (right ++ rest)) (hright : Scans right after rest) :
    Scans (left ++ right) (before ++ after) rest := by
  intro pos
  obtain ⟨front, hfront, hscan⟩ := hleft pos
  obtain ⟨back, hback, hscan'⟩ := hright (pos + left.length)
  refine ⟨front ++ back, by rw [List.map_append, hfront, hback], ?_⟩
  rw [List.append_assoc, hscan, hscan', List.length_append, ← Nat.add_assoc]
  cases Token.scan (pos + left.length + right.length) rest <;> simp [Except.map]

/-- White space between words is skipped. -/
theorem space (rest : List Char) : Scans [' '] [] rest := by
  intro pos
  refine ⟨[], rfl, ?_⟩
  rw [List.singleton_append, Token.scan_space pos rest rfl]
  cases Token.scan (pos + 1) rest <;> simp [Except.map]

/-- A word is cut off where it ends. -/
theorem word {kind : TokenKind} {text : String} {rest : List Char}
    (hkind : kind ≠ .endOfInput) (hadmits : kind.Admits text.toList)
    (hends : kind.EndsBefore rest) : Scans text.toList [⟨kind, text⟩] rest := by
  intro pos
  refine ⟨[⟨kind, text, pos⟩], rfl, ?_⟩
  rw [Token.scan_append pos hkind hadmits hends, String.ofList_toList]
  rfl

/-- Characters that are cut into words up to the end of the line. -/
theorem scan_eq {chars : List Char} {words : List Word} (h : Scans chars words []) (pos : Nat) :
    ∃ tokens, tokens.map Token.word = words ∧
      Token.scan pos chars = .ok (tokens ++ [⟨.endOfInput, "", (pos + chars.length : Nat)⟩]) := by
  obtain ⟨tokens, hwords, hscan⟩ := h pos
  refine ⟨tokens, hwords, ?_⟩
  rw [List.append_nil] at hscan
  rw [hscan, Token.scan]
  rfl

end Scans

end MatrixCalc
