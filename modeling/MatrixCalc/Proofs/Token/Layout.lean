import MatrixCalc.Proofs.Token.Scan

/-!
# Words with white space between them

A `Layout` is a row of words with runs of white space in front of, between and behind them. Since
the words are apart, none of them extends the one before it, and scanning the characters of a
layout gives its words, each at the place where it was put (`Layout.ofSource_text`).
-/

namespace MatrixCalc

/-- A run of white space, possibly empty. -/
def IsGap (chars : List Char) : Prop :=
  ∀ char ∈ chars, Token.isSpace char = true

/-- A word that can be written for its kind, and the white space in front of it. -/
structure SpacedWord where
  gap : List Char
  word : Word
  isGap : IsGap gap
  kind : word.kind ≠ .endOfInput
  admits : word.kind.Admits word.text.toList

namespace SpacedWord

/-- The white space and the word behind it. -/
def chars (item : SpacedWord) : List Char :=
  item.gap ++ item.word.text.toList

/-- The tokens of words that stand one behind the other from a position on. -/
def tokens (pos : Nat) : List SpacedWord → List Token
  | [] => []
  | item :: rest =>
      ⟨item.word.kind, item.word.text, (pos + item.gap.length : Nat)⟩ ::
        tokens (pos + item.chars.length) rest

/-- The tokens of spaced words are their words. -/
theorem map_word_tokens (pos : Nat) (items : List SpacedWord) :
    (tokens pos items).map Token.word = items.map word := by
  induction items generalizing pos with
  | nil => rfl
  | cons item rest ih => exact congrArg (item.word :: ·) (ih _)

end SpacedWord

/-- A row of words with white space in front of each and behind the last. Only in front of the
first and behind the last the white space may be missing. -/
structure Layout where
  items : List SpacedWord
  trail : List Char
  apart : ∀ item ∈ items.tail, item.gap ≠ []
  isGap : IsGap trail

namespace Layout

/-- The words of a layout. -/
def words (layout : Layout) : List Word :=
  layout.items.map SpacedWord.word

/-- The characters of a layout, from the first to the last. -/
def chars (layout : Layout) : List Char :=
  layout.items.flatMap SpacedWord.chars ++ layout.trail

/-- The line that is laid out. -/
def text (layout : Layout) : String :=
  String.ofList layout.chars

/-- The tokens of a layout, each at the number of characters in front of its word, and the end of
the input behind the last character. -/
def tokens (layout : Layout) : List Token :=
  SpacedWord.tokens 0 layout.items ++ [⟨.endOfInput, "", (layout.chars.length : Nat)⟩]

end Layout

namespace Token

/-! ## Scanning across white space -/

/-- White space makes no word longer. -/
theorem endsBefore_of_isSpace (kind : TokenKind) {rest : List Char}
    (h : ∀ char ∈ rest.head?, isSpace char = true) : kind.EndsBefore rest := by
  refine kind.endsBefore_of_head? fun char hchar => ?_
  rcases isSpace_iff.1 (h char hchar) with rfl | rfl | rfl | rfl <;> decide

/-- A gap is passed over. -/
theorem scan_gap (pos : Nat) {gap : List Char} (rest : List Char) (h : IsGap gap) :
    scan pos (gap ++ rest) = scan (pos + gap.length) rest := by
  induction gap generalizing pos with
  | nil => rfl
  | cons char gap ih =>
    obtain ⟨hchar, hgap⟩ := List.forall_mem_cons.1 h
    rw [List.cons_append, scan_space pos _ hchar, ih (pos + 1) hgap, List.length_cons,
      Nat.add_right_comm, Nat.add_assoc]

/-- A word in front of which there may be white space, and which ends where it was put. -/
theorem scan_spacedWord (pos : Nat) (item : SpacedWord) {rest : List Char}
    (hends : item.word.kind.EndsBefore rest) :
    scan pos (item.chars ++ rest) = (scan (pos + item.chars.length) rest).map
      (⟨item.word.kind, item.word.text, (pos + item.gap.length : Nat)⟩ :: ·) := by
  rw [SpacedWord.chars, List.append_assoc, scan_gap pos _ item.isGap,
    scan_append _ item.kind item.admits hends, String.ofList_toList, List.length_append,
    ← Nat.add_assoc]

/-- What stands behind the first of some words that are apart starts with white space, if there is
anything. -/
theorem isSpace_head?_of_apart {items : List SpacedWord} {trail : List Char}
    (hitems : ∀ item ∈ items, item.gap ≠ []) (htrail : IsGap trail) :
    ∀ char ∈ (items.flatMap SpacedWord.chars ++ trail).head?, isSpace char = true := by
  cases items with
  | nil => exact fun char hchar => htrail char (List.mem_of_mem_head? hchar)
  | cons next rest =>
    obtain ⟨first, more, hgap⟩ := List.exists_cons_of_ne_nil (hitems next List.mem_cons_self)
    have hspace : isSpace first = true := next.isGap first (hgap ▸ List.mem_cons_self)
    intro char hchar
    obtain rfl : first = char := by
      simpa [SpacedWord.chars, hgap] using hchar
    exact hspace

/-- Spaced words are scanned as their tokens and the end of the input. -/
theorem scan_spacedWords (pos : Nat) (items : List SpacedWord) {trail : List Char}
    (happart : ∀ item ∈ items.tail, item.gap ≠ []) (htrail : IsGap trail) :
    scan pos (items.flatMap SpacedWord.chars ++ trail) =
      .ok (SpacedWord.tokens pos items ++ [⟨.endOfInput, "",
        (pos + (items.flatMap SpacedWord.chars ++ trail).length : Nat)⟩]) := by
  induction items generalizing pos with
  | nil =>
    have hgap := scan_gap pos [] htrail
    rw [List.append_nil] at hgap
    rw [List.flatMap_nil, List.nil_append, hgap, scan]
    rfl
  | cons item rest ih =>
    -- the words behind the first one are apart from it and from one another
    have hends : item.word.kind.EndsBefore (rest.flatMap SpacedWord.chars ++ trail) :=
      endsBefore_of_isSpace _ (isSpace_head?_of_apart happart htrail)
    have hrest := ih (pos + item.chars.length) fun next hnext =>
      happart next (List.mem_of_mem_tail hnext)
    have hlength : pos + item.chars.length + (rest.flatMap SpacedWord.chars ++ trail).length =
        pos + (item.chars ++ (rest.flatMap SpacedWord.chars ++ trail)).length := by
      simp only [List.length_append, Nat.add_assoc]
    rw [List.flatMap_cons, List.append_assoc, scan_spacedWord pos item hends, hrest, hlength]
    rfl

end Token

/-- The tokens of a line that is laid out are its words, where they were put. -/
theorem Layout.ofSource_text (layout : Layout) :
    Token.ofSource layout.text = .ok layout.tokens := by
  have hscan := Token.scan_spacedWords 0 layout.items layout.apart layout.isGap
  rw [← Layout.chars, Nat.zero_add] at hscan
  rw [Token.ofSource, Layout.text, String.toList_ofList, hscan]
  rfl

end MatrixCalc
