import MatrixCalc.Report

/-!
# Cutting a line into tokens

`Token.scan` reads tokens from the front of the characters of a line, skipping white space, and
ends with the token for the end of the input. A token is as long as it can be: a run of digits is
one number, a run of two or more letters one function name. Letters and digits are those of
ASCII.
-/

namespace MatrixCalc.Token

/-- Whether a character separates tokens: space, tab, line feed or carriage return. -/
def isSpace (char : Char) : Bool :=
  char = ' ' || char = '\t' || char = '\n' || char = '\r'

/-- Whether a character is a letter `A` to `Z`. -/
def isUpper (char : Char) : Bool :=
  'A' ≤ char && char ≤ 'Z'

/-- Whether a character is a letter `a` to `z`. -/
def isLower (char : Char) : Bool :=
  'a' ≤ char && char ≤ 'z'

/-- Whether a character is a letter of ASCII. -/
def isLetter (char : Char) : Bool :=
  isUpper char || isLower char

/-- Whether a character is a digit of ASCII. -/
def isNumeral (char : Char) : Bool :=
  '0' ≤ char && char ≤ '9'

/-- The kind of a token that is a single sign. -/
def signKind? (char : Char) : Option TokenKind :=
  match char with
  | '+' => some .plus
  | '-' => some .minus
  | '*' => some .times
  | '/' => some .divide
  | '(' => some .leftParen
  | ')' => some .rightParen
  | ',' => some .comma
  | _ => none

/-- The kind of a variable that is to be defined, by the character behind the dollar sign. -/
def definedKind? (char : Char) : Option TokenKind :=
  if isUpper char then some .defineMatrix
  else if isLower char then some .defineScalar
  else if char = '$' then some .defineAnonymous
  else none

/-- A token cut off the front of some characters: its kind, its characters after the first, and
the characters behind it. -/
structure Lexeme where
  kind : TokenKind
  tail : List Char
  rest : List Char
  deriving DecidableEq, Repr

/-- The token that starts with a sign. A minus sign before `>` belongs to the arrow. -/
def signLexeme (kind : TokenKind) (rest : List Char) : Lexeme :=
  match kind, rest with
  | .minus, '>' :: after => ⟨.arrow, ['>'], after⟩
  | _, _ => ⟨kind, [], rest⟩

/-- The token that starts with a letter. A letter alone is a variable. -/
def letterLexeme (first : Char) (rest : List Char) : Lexeme :=
  match rest.takeWhile isLetter with
  | [] => ⟨if isUpper first then .matrix else .scalar, [], rest⟩
  | more => ⟨.function, more, rest.dropWhile isLetter⟩

/-- The token that starts with a dollar sign. -/
def definedLexeme? (rest : List Char) : Option Lexeme :=
  match rest with
  | [] => none
  | next :: after => (definedKind? next).map fun kind => ⟨kind, [next], after⟩

/-- The token that starts with a character. -/
def lexeme? (first : Char) (rest : List Char) : Option Lexeme :=
  match signKind? first with
  | some kind => some (signLexeme kind rest)
  | none =>
      if isNumeral first then
        some ⟨.number, rest.takeWhile isNumeral, rest.dropWhile isNumeral⟩
      else if isLetter first then some (letterLexeme first rest)
      else if first = '$' then definedLexeme? rest
      else none

theorem length_signLexeme_rest (kind : TokenKind) (rest : List Char) :
    (signLexeme kind rest).rest.length ≤ rest.length := by
  unfold signLexeme
  split <;> simp

theorem length_letterLexeme_rest (first : Char) (rest : List Char) :
    (letterLexeme first rest).rest.length ≤ rest.length := by
  unfold letterLexeme
  split
  · simp
  · exact (List.dropWhile_suffix _).length_le

theorem length_definedLexeme_rest {rest : List Char} {lexeme : Lexeme}
    (h : definedLexeme? rest = some lexeme) : lexeme.rest.length ≤ rest.length := by
  cases rest with
  | nil => simp [definedLexeme?] at h
  | cons next after =>
    obtain ⟨kind, _, rfl⟩ := Option.map_eq_some_iff.1 h
    simp

/-- What is behind a token is no longer than what is behind its first character. -/
theorem length_lexeme_rest {first : Char} {rest : List Char} {lexeme : Lexeme}
    (h : lexeme? first rest = some lexeme) : lexeme.rest.length ≤ rest.length := by
  unfold lexeme? at h
  split at h
  · cases h
    exact length_signLexeme_rest _ _
  · split at h
    · cases h
      exact (List.dropWhile_suffix _).length_le
    · split at h
      · cases h
        exact length_letterLexeme_rest _ _
      · split at h
        · exact length_definedLexeme_rest h
        · simp at h

/-- The tokens of some characters, the first of which has the given position. Fails at a character
that starts no token, with its position. -/
def scan (pos : Nat) (chars : List Char) : Except (Char × Nat) (List Token) :=
  match chars with
  | [] => .ok [⟨.endOfInput, "", pos⟩]
  | first :: rest =>
      if isSpace first then scan (pos + 1) rest
      else
        match _h : lexeme? first rest with
        | none => .error (first, pos)
        | some lexeme =>
            (scan (pos + 1 + lexeme.tail.length) lexeme.rest).map
              (⟨lexeme.kind, String.ofList (first :: lexeme.tail), pos⟩ :: ·)
termination_by chars.length
decreasing_by
  · simp
  · have := length_lexeme_rest _h
    simp only [List.length_cons]
    omega

/-- The tokens of a line. A character that starts no token is reported at its column. -/
def ofSource (source : String) : Except Failure (List Token) :=
  match scan 0 source.toList with
  | .ok tokens => .ok tokens
  | .error (char, pos) => .error (.report ⟨.unrecognized char pos, some ⟨source, pos + 1⟩⟩)

end MatrixCalc.Token
