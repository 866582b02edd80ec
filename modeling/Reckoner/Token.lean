import Reckoner.Text.Escaped
import Reckoner.Value

/-!
# Tokens

The pieces into which a line is cut: their kinds, and a piece with its place in the line. Places are
counted in bytes of the UTF-8 form.

* `TokenKind.unaryPrecedence?`, `TokenKind.binaryPrecedence?`: how tightly an operator binds.
* `Token.listing`: the line that lists a token.
-/

namespace Reckoner

/-! ## Spans of a line -/

/-- The `length` bytes from `start` on. -/
structure Span where
  start : Nat
  length : Nat
deriving DecidableEq

namespace Span

/-- The bytes from `start` up to `stop`; none if `stop` lies before `start`. -/
def between (start stop : Nat) : Span :=
  ⟨start, stop - start⟩

/-- The place behind the last byte. -/
def stop (s : Span) : Nat :=
  s.start + s.length

end Span

/-! ## Kinds of tokens -/

/-- The kinds of tokens. A `stray` token is a character that starts no other token, and `ending`
stands behind the last character of a line. -/
inductive TokenKind where
  | number
  | blank
  | plus
  | minus
  | times
  | slash
  | percent
  | caret
  | openParen
  | closeParen
  | bang
  | and
  | or
  | trueWord
  | falseWord
  | sqrWord
  | sqrtWord
  | identifier
  | stray
  | ending
deriving DecidableEq

namespace TokenKind

/-- The name under which a kind is shown. -/
def name : TokenKind → String
  | number => "NUMBER"
  | blank => "WHITESPACE"
  | plus => "PLUS"
  | minus => "MINUS"
  | times => "TIMES"
  | slash => "SLASH"
  | percent => "MODULO"
  | caret => "EXPONENT"
  | openParen => "OPEN_PAREN"
  | closeParen => "CLOSE_PAREN"
  | bang => "BANG"
  | and => "AND"
  | or => "OR"
  | trueWord => "TRUE_KEYWORD"
  | falseWord => "FALSE_KEYWORD"
  | sqrWord => "SQR_KEYWORD"
  | sqrtWord => "SQRT_KEYWORD"
  | identifier => "IDENTIFIER"
  | stray => "BAD_TOKEN"
  | ending => "EOF"

/-- Every kind. -/
def all : List TokenKind :=
  [number, blank, plus, minus, times, slash, percent, caret, openParen, closeParen, bang, and, or,
    trueWord, falseWord, sqrWord, sqrtWord, identifier, stray, ending]

/-- The kind of a run of letters: a keyword or an identifier. -/
def ofWord (word : String) : TokenKind :=
  if word = "true" then trueWord
  else if word = "false" then falseWord
  else if word = "sqr" then sqrWord
  else if word = "sqrt" then sqrtWord
  else identifier

/-- Blanks and stray characters only separate; the other kinds form expressions. -/
def isSeparator : TokenKind → Bool
  | blank | stray => true
  | _ => false

/-! Unary and binary operators stand on one scale: the signs and `!` bind tighter than `^`, the roots
and squares less tightly. -/

/-- The precedence of a unary operator. -/
def unaryPrecedence? : TokenKind → Option Nat
  | plus | minus | bang => some 7
  | sqrWord | sqrtWord => some 5
  | _ => none

/-- The precedence of a binary operator. -/
def binaryPrecedence? : TokenKind → Option Nat
  | caret => some 6
  | times | slash | percent => some 4
  | plus | minus => some 3
  | and => some 2
  | or => some 1
  | _ => none

end TokenKind

/-! ## Tokens -/

/-- A piece of a line: its kind, where it starts, its characters and the value it denotes. -/
structure Token where
  kind : TokenKind
  position : Nat
  literal : String
  value : Option Value := none
deriving BEq

namespace Token

/-- The bytes of the line that the token covers. -/
def span (t : Token) : Span :=
  ⟨t.position, t.literal.utf8ByteSize⟩

/-- Stands for a token of the given kind where there is none. -/
def missing (kind : TokenKind) (position : Nat) : Token :=
  { kind, position, literal := "" }

/-- The end of a line. -/
def ending (position : Nat) : Token :=
  missing .ending position

/-- The line that lists a token: kind, escaped characters and value. -/
def listing (t : Token) : String :=
  t.kind.name ++ " " ++ String.ofList (Text.escape t.literal.toList) ++ " " ++
    match t.value with
    | some v => v.text
    | none => "null"

end Token

end Reckoner
