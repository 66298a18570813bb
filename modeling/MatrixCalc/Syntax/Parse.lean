import MatrixCalc.Token.Scan
import MatrixCalc.Numeral

/-!
# Parsing

The grammar, with one token of lookahead:

    line   := expr ("->" (matrix | scalar))?
    expr   := term (("+" | "-") term)*
    term   := factor (("*" | "/") factor)*
    factor := "-"? operand
    operand := number | variable | "(" expr ")" | function "(" expr ("," expr)* ")"

A parser returns a value and the tokens it left, together with a proof that it used up at least
one. Groups and calls take the parser of the expressions inside them as an argument, and at the
deepest level that is allowed there is none; so the recursion is on the number of levels left.
-/

namespace MatrixCalc

/-- Why a parser stops: at a token of another kind than needed (`none` is the end of the input), at
a group or call too deep, or because a token has no meaning. -/
inductive Refusal where
  | unexpected (expected : List TokenKind) (found : Option Token)
  | tooDeep (found : Token)
  | meaningless (failure : Failure)
  deriving DecidableEq, Repr

/-- A value read from the front of some tokens, and fewer than `bound` tokens left. -/
structure Parsed (α : Type) (bound : Nat) where
  value : α
  rest : List Token
  shorter : rest.length < bound

/-- A parser that uses up at least one token. -/
abbrev Parser (α : Type) := (tokens : List Token) → Except Refusal (Parsed α tokens.length)

/-- A parser that may use up no token. -/
abbrev OptionalParser (α : Type) :=
  (tokens : List Token) → Except Refusal (Parsed α (tokens.length + 1))

namespace Parser

/-- Takes a token of one of the given kinds. -/
def expect (kinds : List TokenKind) : Parser Token
  | [] => .error (.unexpected kinds none)
  | token :: rest =>
      if token.kind ∈ kinds then .ok ⟨token, rest, by simp⟩
      else .error (.unexpected kinds (some token))

/-- Reads operators with an item behind each, and joins the items to what stands before them. -/
def joined {α β ω : Type} (operator? : TokenKind → Option ω) (item : Parser α)
    (join : β → ω → α → β) (before : β) : OptionalParser β
  | [] => .ok ⟨before, [], by simp⟩
  | token :: rest =>
      match operator? token.kind with
      | none => .ok ⟨before, token :: rest, by simp⟩
      | some operator => do
          let next ← item rest
          let all ← joined operator? item join (join before operator next.value) next.rest
          .ok ⟨all.value, all.rest, by
            have := next.shorter
            have := all.shorter
            simp only [List.length_cons]
            omega⟩
termination_by tokens => tokens.length
decreasing_by
  have := next.shorter
  simp only [List.length_cons]
  omega

/-- Reads one item, then operators with an item behind each. -/
def chain {α β ω : Type} (operator? : TokenKind → Option ω) (item : Parser α) (single : α → β)
    (join : β → ω → α → β) : Parser β := fun tokens => do
  let first ← item tokens
  let all ← joined operator? item join (single first.value) first.rest
  .ok ⟨all.value, all.rest, by
    have := first.shorter
    have := all.shorter
    omega⟩

/-- The operator between terms that a token stands for. -/
def addOp? : TokenKind → Option AddOp
  | .plus => some .add
  | .minus => some .sub
  | _ => none

/-- The operator between factors that a token stands for. -/
def mulOp? : TokenKind → Option MulOp
  | .times => some .mul
  | .divide => some .div
  | _ => none

/-- The reference that a token of a variable stands for. -/
def refKind? : TokenKind → Option RefKind
  | .matrix => some .matrix
  | .scalar => some .scalar
  | .defineMatrix => some .defineMatrix
  | .defineScalar => some .defineScalar
  | .defineAnonymous => some .defineAnonymous
  | _ => none

/-- The kinds of token that an operand starts with. -/
def operandStarts : List TokenKind :=
  [.number, .function, .leftParen, .matrix, .scalar, .defineMatrix, .defineScalar,
   .defineAnonymous]

/-- A number as an operand. It is never below zero; a minus sign belongs to the factor. -/
def literal (value : Int) : Except Failure Operand :=
  if value < 0 then .error (.fault .negativeLiteral) else .ok (.number value.toNat)

/-- The operand that a number is read as. -/
def numberOperand (text : String) : Except Refusal Operand :=
  match Numeral.read text >>= literal with
  | .ok operand => .ok operand
  | .error failure => .error (.meaningless failure)

/-- The operand that a variable is read as. Its name is the last character that was written. -/
def variableOperand (kind : RefKind) (text : String) : Except Refusal Operand :=
  if kind = .defineAnonymous then .ok (.variable ⟨kind, none⟩)
  else match text.toList.getLast? with
    | some char => .ok (.variable ⟨kind, some (String.singleton char)⟩)
    | none => .error (.meaningless (.fault .emptyName))

/-- Reads the arguments after the first, each behind a comma. -/
def moreArguments (inner : Parser Expr) : OptionalParser Arguments
  | [] => .ok ⟨.nil, [], by simp⟩
  | token :: rest =>
      if token.kind = .comma then do
        let next ← inner rest
        let more ← moreArguments inner next.rest
        .ok ⟨.cons next.value more.value, more.rest, by
          have := next.shorter
          have := more.shorter
          simp only [List.length_cons]
          omega⟩
      else .ok ⟨.nil, token :: rest, by simp⟩
termination_by tokens => tokens.length
decreasing_by
  have := next.shorter
  simp only [List.length_cons]
  omega

/-- Reads the arguments of a call, from its opening to its closing parenthesis. -/
def arguments (inner : Parser Expr) : Parser Arguments := fun tokens => do
  let opening ← expect [.leftParen] tokens
  let first ← inner opening.rest
  let more ← moreArguments inner first.rest
  let closing ← expect [.rightParen] more.rest
  .ok ⟨.cons first.value more.value, closing.rest, by
    have := opening.shorter
    have := first.shorter
    have := more.shorter
    have := closing.shorter
    omega⟩

/-- Reads the rest of a group, behind its opening parenthesis. -/
def groupBody (inner : Parser Expr) : Parser Expr := fun tokens => do
  let body ← inner tokens
  let closing ← expect [.rightParen] body.rest
  .ok ⟨body.value, closing.rest, by
    have := body.shorter
    have := closing.shorter
    omega⟩

/-- Reads an operand. `inner` reads the expressions in groups and calls, if these may still be
opened. -/
def operand (inner : Option (Parser Expr)) : Parser Operand
  | [] => .error (.unexpected operandStarts none)
  | token :: rest =>
      match token.kind, inner with
      | .number, _ => do
          let value ← numberOperand token.text
          .ok ⟨value, rest, by simp⟩
      | .function, none | .leftParen, none => .error (.tooDeep token)
      | .function, some inner => do
          let supplied ← arguments inner rest
          .ok ⟨.call token.text supplied.value, supplied.rest, Nat.lt_succ_of_lt supplied.shorter⟩
      | .leftParen, some inner => do
          let body ← groupBody inner rest
          .ok ⟨.group body.value, body.rest, Nat.lt_succ_of_lt body.shorter⟩
      | kind, _ =>
          match refKind? kind with
          | some ref => do
              let value ← variableOperand ref token.text
              .ok ⟨value, rest, by simp⟩
          | none => .error (.unexpected operandStarts (some token))

/-- Reads a factor: an operand with at most one minus sign before it. -/
def factor (inner : Option (Parser Expr)) : Parser Factor
  | [] => .error (.unexpected operandStarts none)
  | token :: rest =>
      if token.kind = .minus then do
        let body ← operand inner rest
        .ok ⟨.mk true body.value, body.rest, Nat.lt_succ_of_lt body.shorter⟩
      else do
        let body ← operand inner (token :: rest)
        .ok ⟨.mk false body.value, body.rest, body.shorter⟩

/-- Reads a term. -/
def term (inner : Option (Parser Expr)) : Parser Term :=
  chain mulOp? (factor inner) .factor .join

/-- Reads a sum. -/
def sum (inner : Option (Parser Expr)) : Parser Sum :=
  chain addOp? (term inner) .term .join

/-- Reads an expression without a target. -/
def expr (inner : Option (Parser Expr)) : Parser Expr := fun tokens => do
  let all ← sum inner tokens
  .ok ⟨.mk all.value none, all.rest, all.shorter⟩

/-- Reads an expression in which groups and calls nest at most as many levels deep. -/
def exprWithin : Nat → Parser Expr
  | 0 => expr none
  | levels + 1 => expr (some (exprWithin levels))

/-- Reads the variable behind an arrow. Its name is all that was written. -/
def target : Parser VarRef := fun tokens => do
  let named ← expect [.matrix, .scalar] tokens
  let kind := if named.value.kind = .matrix then RefKind.matrix else RefKind.scalar
  .ok ⟨⟨kind, some named.value.text⟩, named.rest, named.shorter⟩

/-- Checks that no token is left. -/
def finish (expr : Expr) : List Token → Except Refusal Expr
  | [] => .ok expr
  | token :: _ => .error (.unexpected [.endOfInput] (some token))

/-- Reads a whole line. -/
def line (tokens : List Token) : Except Refusal Expr := do
  let body ← exprWithin nestingLimit tokens
  match body.rest with
  | [] => .ok body.value
  | token :: rest =>
      if token.kind = .arrow then do
        let named ← target rest
        finish (.mk body.value.sum (some named.value)) named.rest
      else finish body.value (token :: rest)

end Parser

namespace Expr

/-- The position of the end of the input: that of the token for it, or else the position after
the last token. -/
def endPosition (tokens : List Token) : Int :=
  match tokens.find? fun token => token.kind = .endOfInput with
  | some token => token.pos
  | none => match tokens.getLast? with
    | some token => token.pos + 1
    | none => 0

/-- The report of a cause at a position of the line, if the line is known. -/
def reportAt (source : Option String) (pos : Int) (cause : Cause) : Failure :=
  .report ⟨cause, source.map fun line => ⟨line, pos + 1⟩⟩

/-- What a parser fails with that stopped for some reason. -/
def failureOf (source : Option String) (endPos : Int) : Refusal → Failure
  | .unexpected expected (some token) =>
      reportAt source token.pos (.unexpected expected token.kind token.pos)
  | .unexpected expected none =>
      reportAt source endPos (.unexpected expected .endOfInput endPos)
  | .tooDeep token => reportAt source token.pos (.nestedTooDeeply token.kind token.pos)
  | .meaningless failure => failure

/-- Parses the tokens before the first token for the end of the input. -/
def ofTokens (tokens : List Token) (source : Option String) : Except Failure Expr :=
  match Parser.line (tokens.takeWhile fun token => token.kind ≠ .endOfInput) with
  | .ok expr => .ok expr
  | .error refusal => .error (failureOf source (endPosition tokens) refusal)

/-- Parses a line. -/
def parse (source : String) : Except Failure Expr := do
  let tokens ← Token.ofSource source
  ofTokens tokens (some source)

end Expr

end MatrixCalc
