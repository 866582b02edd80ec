import Reckoner.Operator

/-!
# Typed expressions

An expression in which every operator is resolved to an overload, so that it has a type.

* `TypedExpression.nodes`: the expressions it consists of in preorder, with their depth.
-/

namespace Reckoner

/-- An expression with resolved operators. -/
inductive TypedExpression where
  | literal (value : Value)
  | unary (overload : UnaryOverload) (operand : TypedExpression)
  | binary (left : TypedExpression) (overload : BinaryOverload) (right : TypedExpression)
  | parenthesized (inner : TypedExpression)

namespace TypedExpression

/-- The type of an expression: that of its value, or the result of its outermost operator. -/
def type : TypedExpression → ValueType
  | literal v => v.type
  | unary o _ => o.result
  | binary _ o _ => o.result
  | parenthesized e => e.type

/-- An expression, which lies at `depth`, and all those below it, in preorder. -/
def nodes (depth : Nat) : TypedExpression → List (Nat × TypedExpression)
  | literal v => [(depth, literal v)]
  | unary o e => (depth, unary o e) :: e.nodes (depth + 1)
  | binary l o r => (depth, binary l o r) :: l.nodes (depth + 1) ++ r.nodes (depth + 1)
  | parenthesized e => (depth, parenthesized e) :: e.nodes (depth + 1)

end TypedExpression

end Reckoner
