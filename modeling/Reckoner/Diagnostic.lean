import Reckoner.Token

/-!
# Diagnostics

What is wrong with a line, and where. A diagnostic says which rule is broken; its wording is that
of `Diagnostic.message` alone.
-/

namespace Reckoner

/-- What can be wrong with a span of a line. -/
inductive Complaint where
  /-- The digits are not the way to write an integer of 32 bits. -/
  | invalidNumber (digits : String)
  /-- The character starts no token. -/
  | strayCharacter (c : Char)
  /-- A token of one kind stands where another is needed. -/
  | unexpectedToken (actual expected : TokenKind)
  /-- The expression has too many levels. -/
  | nestedTooDeep (limit : Nat)
  /-- The operator does not apply to an operand of this type. -/
  | undefinedUnary (operator : String) (operand : ValueType)
  /-- The operator does not apply to operands of these types. -/
  | undefinedBinary (operator : String) (left right : ValueType)
  /-- A complaint in words of its own. -/
  | remark (words : String)
deriving DecidableEq

/-- A complaint about a span of a line. -/
structure Diagnostic where
  span : Span
  complaint : Complaint
deriving DecidableEq

namespace Diagnostic

/-- The wording of a diagnostic. -/
def message (d : Diagnostic) : String :=
  match d.complaint with
  | .invalidNumber digits =>
    "the number " ++ digits ++ " can't be represented by a 32-bit integer"
  | .strayCharacter c =>
    "bad character input: '" ++ String.singleton c ++ "' at position " ++
      Decimal.natural d.span.start
  | .unexpectedToken actual expected =>
    "unexpected token of type <" ++ actual.name ++ ">, expected <" ++ expected.name ++ ">"
  | .nestedTooDeep limit =>
    "expression nests deeper than " ++ Decimal.natural limit ++ " levels"
  | .undefinedUnary operator operand =>
    "unary operator '" ++ operator ++ "' is not defined for type " ++ operand.name
  | .undefinedBinary operator left right =>
    "binary operator '" ++ operator ++ "' is not defined for types " ++ left.name ++ " and " ++
      right.name
  | .remark words => words

/-- The complaint about the character `c` at `position`. -/
def strayCharacter (position : Nat) (c : Char) : Diagnostic :=
  ⟨⟨position, c.utf8Size⟩, .strayCharacter c⟩

end Diagnostic

end Reckoner
