import MatrixCalc.Proofs.Numeral

/-!
# The token at the front of a line

Which characters can be written for a token of a kind, and what must not stand behind them for
the token to end there. `Token.lexeme?` cuts off such a token whenever there is one
(`lexeme?_append`), and nothing else (`lexeme?_cut`).
-/

namespace MatrixCalc

open Token

/-- `kind.Admits chars` says that a token of this kind can be written with these characters. -/
def TokenKind.Admits : TokenKind → List Char → Prop
  | .endOfInput, chars => chars = []
  | .plus, chars => chars = ['+']
  | .minus, chars => chars = ['-']
  | .times, chars => chars = ['*']
  | .divide, chars => chars = ['/']
  | .arrow, chars => chars = ['-', '>']
  | .comma, chars => chars = [',']
  | .leftParen, chars => chars = ['(']
  | .rightParen, chars => chars = [')']
  | .number, chars => chars ≠ [] ∧ ∀ char ∈ chars, isNumeral char = true
  | .function, chars => 2 ≤ chars.length ∧ ∀ char ∈ chars, isLetter char = true
  | .matrix, chars => ∃ char, chars = [char] ∧ isUpper char = true
  | .scalar, chars => ∃ char, chars = [char] ∧ isLower char = true
  | .defineMatrix, chars => ∃ char, chars = ['$', char] ∧ isUpper char = true
  | .defineScalar, chars => ∃ char, chars = ['$', char] ∧ isLower char = true
  | .defineAnonymous, chars => chars = ['$', '$']

/-- A token whose characters can be written for its kind. -/
def Token.Valid (token : Token) : Prop :=
  token.kind.Admits token.text.toList

/-- A valid token is written as its kind admits. -/
theorem Token.Valid.admits {token : Token} {kind : TokenKind} (h : token.Valid)
    (hkind : token.kind = kind) : kind.Admits token.text.toList := by
  rw [← hkind]
  exact h

/-- `kind.EndsBefore rest` says that a token of this kind ends where `rest` begins: the next
character would not make it longer. -/
def TokenKind.EndsBefore : TokenKind → List Char → Prop
  | .minus, rest => ∀ char ∈ rest.head?, char ≠ '>'
  | .number, rest => ∀ char ∈ rest.head?, isNumeral char = false
  | .function, rest | .matrix, rest | .scalar, rest => ∀ char ∈ rest.head?, isLetter char = false
  | _, _ => True

/-- A character that belongs to no longer token ends one of any kind. -/
theorem TokenKind.endsBefore_of_head? (kind : TokenKind) {rest : List Char}
    (h : ∀ char ∈ rest.head?, char ≠ '>' ∧ isNumeral char = false ∧ isLetter char = false) :
    kind.EndsBefore rest := by
  cases kind with
  | minus => exact fun char hchar => (h char hchar).1
  | number => exact fun char hchar => (h char hchar).2.1
  | function | matrix | scalar => exact fun char hchar => (h char hchar).2.2
  | _ => trivial

namespace Token

/-! ## Runs of characters -/

/-- A run ends where the first item behind it does not belong to it. -/
theorem takeWhile_append_of_stop {α : Type} {p : α → Bool} {run rest : List α}
    (hrun : ∀ item ∈ run, p item = true) (hrest : ∀ item ∈ rest.head?, p item = false) :
    (run ++ rest).takeWhile p = run := by
  rw [List.takeWhile_append_of_pos hrun]
  cases rest with
  | nil => simp
  | cons next after => rw [List.takeWhile_cons_of_neg (by simp [hrest next rfl]), List.append_nil]

/-- Behind a run stands what does not belong to it. -/
theorem dropWhile_append_of_stop {p : Char → Bool} {run rest : List Char}
    (hrun : ∀ char ∈ run, p char = true) (hrest : ∀ char ∈ rest.head?, p char = false) :
    (run ++ rest).dropWhile p = rest := by
  rw [List.dropWhile_append_of_pos hrun]
  cases rest with
  | nil => rfl
  | cons next after => rw [List.dropWhile_cons_of_neg (by simp [hrest next rfl])]

/-- What is left after a run does not start with an item of the run. -/
theorem head?_dropWhile_eq_false (p : Char → Bool) (chars : List Char) :
    ∀ char ∈ (chars.dropWhile p).head?, p char = false := by
  intro char hchar
  have h := List.head?_dropWhile_not p chars
  rw [Option.mem_def.1 hchar] at h
  simpa using h

/-! ## Classes of characters -/

/-- Signs come before the digits and letters in the order of code points. -/
theorem signKind?_eq_none {char : Char} (h : 48 ≤ char.toNat) : signKind? char = none := by
  unfold signKind?
  split
  case h_8 => rfl
  all_goals exact absurd h (by decide)

/-- A letter is of upper or of lower case. -/
theorem isLetter_iff {char : Char} :
    isLetter char = true ↔ isUpper char = true ∨ isLower char = true := by
  simp [isLetter]

/-- The letters start at 65. -/
theorem le_toNat_of_isLetter {char : Char} (h : isLetter char = true) : 65 ≤ char.toNat := by
  rcases isLetter_iff.1 h with hupper | hlower
  · exact (isUpper_iff.1 hupper).1
  · have := (isLower_iff.1 hlower).1
    omega

/-- A letter is no digit. -/
theorem isNumeral_eq_false_of_isLetter {char : Char} (h : isLetter char = true) :
    isNumeral char = false := by
  rw [Bool.eq_false_iff]
  intro hnumeral
  have := (isNumeral_iff.1 hnumeral).2
  have := le_toNat_of_isLetter h
  omega

/-- A letter of lower case is not of upper case. -/
theorem isUpper_eq_false_of_isLower {char : Char} (h : isLower char = true) :
    isUpper char = false := by
  rw [Bool.eq_false_iff]
  intro hupper
  have := (isUpper_iff.1 hupper).2
  have := (isLower_iff.1 h).1
  omega

/-! ## One lexeme -/

/-- A digit starts a number, which takes all digits behind it. -/
theorem lexeme?_number {first : Char} (rest : List Char) (h : isNumeral first = true) :
    lexeme? first rest = some ⟨.number, rest.takeWhile isNumeral, rest.dropWhile isNumeral⟩ := by
  simp [lexeme?, signKind?_eq_none (isNumeral_iff.1 h).1, h]

/-- A letter starts a variable or a function. -/
theorem lexeme?_letter {first : Char} (rest : List Char) (h : isLetter first = true) :
    lexeme? first rest = some (letterLexeme first rest) := by
  have hle := le_toNat_of_isLetter h
  have hsign : signKind? first = none := signKind?_eq_none (by omega)
  simp [lexeme?, hsign, isNumeral_eq_false_of_isLetter h, h]

/-- A dollar sign starts a definition. -/
theorem lexeme?_dollar (rest : List Char) : lexeme? '$' rest = definedLexeme? rest := rfl

/-- What the characters of a sign and a kind with that sign have in common. -/
theorem signKind?_eq_some {char : Char} {kind : TokenKind} (h : signKind? char = some kind) :
    kind.Admits [char] ∧ kind ≠ .endOfInput ∧ (kind = .minus ∨ ∀ rest, kind.EndsBefore rest) := by
  unfold signKind? at h
  split at h
  case h_8 => cases h
  all_goals
    cases h
    refine ⟨rfl, by simp, ?_⟩
    simp [TokenKind.EndsBefore]

/-- A lexeme is a token that can be written so and that ends where it was cut off. -/
structure Lexeme.Cut (first : Char) (rest : List Char) (lexeme : Lexeme) : Prop where
  kind : lexeme.kind ≠ .endOfInput
  admits : lexeme.kind.Admits (first :: lexeme.tail)
  split : rest = lexeme.tail ++ lexeme.rest
  ends : lexeme.kind.EndsBefore lexeme.rest

/-- A sign is cut off, and an arrow is cut off as one. -/
theorem signLexeme_cut {first : Char} {rest : List Char} {kind : TokenKind}
    (h : signKind? first = some kind) : (signLexeme kind rest).Cut first rest := by
  obtain ⟨hadmits, hkind, hends⟩ := signKind?_eq_some h
  unfold signLexeme
  split
  · next after =>
    obtain rfl : first = '-' := by simpa [TokenKind.Admits] using hadmits
    exact ⟨by simp, rfl, rfl, trivial⟩
  · next hnot =>
    refine ⟨hkind, hadmits, rfl, ?_⟩
    rcases hends with rfl | hends
    -- a minus sign before `>` would have been an arrow
    · rintro char hchar rfl
      obtain ⟨after, rfl⟩ : ∃ after, rest = '>' :: after := by
        cases rest <;> simp_all
      exact hnot after rfl rfl
    · exact hends rest

/-- All letters are cut off, and one of them alone is a variable. -/
theorem letterLexeme_cut {first : Char} {rest : List Char} (h : isLetter first = true) :
    (letterLexeme first rest).Cut first rest := by
  have hstop := head?_dropWhile_eq_false isLetter rest
  have happend := List.takeWhile_append_dropWhile (p := isLetter) (l := rest)
  unfold letterLexeme
  split
  · next hnone =>
    rw [hnone, List.nil_append] at happend
    rw [happend] at hstop
    by_cases hupper : isUpper first = true
    · simp only [hupper]
      exact ⟨by simp, ⟨first, rfl, hupper⟩, rfl, hstop⟩
    · have hlower : isLower first = true := (isLetter_iff.1 h).resolve_left hupper
      simp only [hupper]
      exact ⟨by simp, ⟨first, rfl, hlower⟩, rfl, hstop⟩
  · next hsome =>
    refine ⟨by simp, ⟨?_, ?_⟩, happend.symm, hstop⟩
    · have := List.length_pos_iff.2 hsome
      simp only [List.length_cons]
      omega
    · rintro char (_ | ⟨_, hchar⟩)
      · exact h
      · exact List.mem_takeWhile_imp hchar

/-- A dollar sign is cut off with the letter or the dollar sign behind it. -/
theorem definedLexeme?_cut {rest : List Char} {lexeme : Lexeme}
    (h : definedLexeme? rest = some lexeme) : lexeme.Cut '$' rest := by
  cases rest with
  | nil => simp [definedLexeme?] at h
  | cons next after =>
    obtain ⟨kind, hkind, rfl⟩ := Option.map_eq_some_iff.1 h
    unfold definedKind? at hkind
    split at hkind
    · next hupper =>
      cases hkind
      exact ⟨by simp, ⟨next, rfl, hupper⟩, rfl, trivial⟩
    · split at hkind
      · next hlower =>
        cases hkind
        exact ⟨by simp, ⟨next, rfl, hlower⟩, rfl, trivial⟩
      · split at hkind
        · next hdollar =>
          cases hkind
          subst hdollar
          exact ⟨by simp, rfl, rfl, trivial⟩
        · cases hkind

/-- Whatever is cut off is written as its kind admits and ends there. -/
theorem lexeme?_cut {first : Char} {rest : List Char} {lexeme : Lexeme}
    (h : lexeme? first rest = some lexeme) : lexeme.Cut first rest := by
  unfold lexeme? at h
  split at h
  · next hsign =>
    cases h
    exact signLexeme_cut hsign
  · split at h
    · next hnumeral =>
      cases h
      refine ⟨by simp, ⟨by simp, ?_⟩, List.takeWhile_append_dropWhile.symm,
        head?_dropWhile_eq_false _ _⟩
      rintro char (_ | ⟨_, hchar⟩)
      · exact hnumeral
      · exact List.mem_takeWhile_imp hchar
    · split at h
      · next hletter =>
        cases h
        exact letterLexeme_cut hletter
      · split at h
        · next hdollar =>
          subst hdollar
          exact definedLexeme?_cut h
        · cases h

/-- A token that is written at the front and ends there is cut off. -/
theorem lexeme?_append {kind : TokenKind} {first : Char} {tail rest : List Char}
    (hkind : kind ≠ .endOfInput) (hadmits : kind.Admits (first :: tail))
    (hends : kind.EndsBefore rest) : lexeme? first (tail ++ rest) = some ⟨kind, tail, rest⟩ := by
  cases kind with
  | endOfInput => exact absurd rfl hkind
  | plus | times | divide | comma | leftParen | rightParen | arrow | defineAnonymous =>
    cases hadmits
    rfl
  | minus =>
    cases hadmits
    cases rest with
    | nil => rfl
    | cons next after =>
      have hne : next ≠ '>' := hends next rfl
      simp [lexeme?, signKind?, signLexeme, hne]
  | number =>
    have htail : ∀ char ∈ tail, isNumeral char = true := fun char hchar =>
      hadmits.2 char (List.mem_cons_of_mem _ hchar)
    rw [lexeme?_number _ (hadmits.2 first List.mem_cons_self),
      takeWhile_append_of_stop htail hends, dropWhile_append_of_stop htail hends]
  | function =>
    have htail : ∀ char ∈ tail, isLetter char = true := fun char hchar =>
      hadmits.2 char (List.mem_cons_of_mem _ hchar)
    have hne : tail ≠ [] := by
      rintro rfl
      exact absurd hadmits.1 (by simp)
    rw [lexeme?_letter _ (hadmits.2 first List.mem_cons_self), letterLexeme,
      takeWhile_append_of_stop htail hends, dropWhile_append_of_stop htail hends]
    cases tail with
    | nil => exact absurd rfl hne
    | cons second more => rfl
  | matrix =>
    obtain ⟨char, heq, hupper⟩ := hadmits
    cases heq
    have htake : (([] : List Char) ++ rest).takeWhile isLetter = [] :=
      takeWhile_append_of_stop (by simp) hends
    rw [lexeme?_letter _ (isLetter_iff.2 (.inl hupper)), letterLexeme, htake]
    simp [hupper]
  | scalar =>
    obtain ⟨char, heq, hlower⟩ := hadmits
    cases heq
    have htake : (([] : List Char) ++ rest).takeWhile isLetter = [] :=
      takeWhile_append_of_stop (by simp) hends
    rw [lexeme?_letter _ (isLetter_iff.2 (.inr hlower)), letterLexeme, htake]
    simp [isUpper_eq_false_of_isLower hlower]
  | defineMatrix =>
    obtain ⟨char, heq, hupper⟩ := hadmits
    cases heq
    simp [lexeme?_dollar, definedLexeme?, definedKind?, hupper]
  | defineScalar =>
    obtain ⟨char, heq, hlower⟩ := hadmits
    cases heq
    simp [lexeme?_dollar, definedLexeme?, definedKind?, hlower, isUpper_eq_false_of_isLower hlower]

end Token

end MatrixCalc
