import Reckoner.Diagnostic
import Reckoner.Expression
import Reckoner.TypedExpression

/-!
# Typing

Every operator of an expression is resolved by the types of its operands. An operator without an
overload is noted and left out: its operand, or the left one, takes its place, so that one line can
show several faults.

* `Expression.elaborate`: the typed expression, and the notes behind those already taken.
-/

namespace Reckoner

/-- The value of a literal. A token without a value, which stands for a missing one, counts as the
integer zero. -/
def Token.denoted (t : Token) : Value :=
  t.value.getD (.integer 0)

/-- Resolves every operator, the operands from left to right before the operator between them. -/
def Expression.elaborate : Expression → Array Diagnostic → TypedExpression × Array Diagnostic
  | literal t, noted => (.literal t.denoted, noted)
  | unary op e, noted =>
    let operand := e.elaborate noted
    let type := operand.1.type
    match UnaryOverload.find? op.kind type with
    | some o => (.unary o operand.1, operand.2)
    | none => (operand.1, operand.2.push ⟨op.span, .undefinedUnary op.literal type⟩)
  | binary l op r, noted =>
    let left := l.elaborate noted
    let right := r.elaborate left.2
    let types := (left.1.type, right.1.type)
    match BinaryOverload.find? op.kind types.1 types.2 with
    | some o => (.binary left.1 o right.1, right.2)
    | none => (left.1, right.2.push ⟨op.span, .undefinedBinary op.literal types.1 types.2⟩)
  | parenthesized _ e _, noted =>
    let inner := e.elaborate noted
    (.parenthesized inner.1, inner.2)

end Reckoner
