import Reckoner.TypedExpression

/-!
# Evaluation

Operands are evaluated from left to right, all of them, before the operator is applied. An operator
looks at the values of its operands and not at their declared types; an expression whose types do
not fit its values may come to nothing, which is told apart from a division by zero.

* `TypedExpression.evaluate`: the value of an expression.
-/

namespace Reckoner

/-- The two operations without a result at a zero divisor. -/
inductive Division where
  | quotient
  | remainder
deriving DecidableEq

/-- The sign with which a division is written. -/
def Division.symbol : Division → String
  | quotient => "/"
  | remainder => "%"

/-- The division of an integer by zero. -/
structure Fault where
  division : Division
  dividend : Int32
deriving DecidableEq

namespace Fault

/-- The wording of a fault. -/
def message (f : Fault) : String :=
  "attempt to compute `" ++ Decimal.integer f.dividend.toInt ++ " " ++ f.division.symbol ++ " 0`"

/-- The rule that is broken. -/
def code (_ : Fault) : String :=
  "eval::division_by_zero"

/-- A hint at what to do about it. -/
def help (_ : Fault) : String :=
  "integer division and remainder are undefined for a zero divisor"

end Fault

/-- Why an expression has no value. -/
inductive Failure where
  | fault (fault : Fault)
  /-- An operator met values for which it has no meaning. -/
  | mismatch
deriving DecidableEq

/-! ## Operations on values -/

/-- The power of two integers as doubles, cut off at the point and clamped to 32 bits. -/
def integerPower (m n : Int32) : Int32 :=
  (Float.pow m.toFloat n.toFloat).toInt32

namespace UnaryOperation

/-- Applies an operation to a value. -/
def apply : UnaryOperation → Value → Except Failure Value
  | identity, .integer n => .ok (.integer n)
  | identity, .double x => .ok (.double x)
  | negation, .integer n => .ok (.integer (-n))
  | negation, .double x => .ok (.double (-x))
  | logicalNegation, .boolean b => .ok (.boolean !b)
  | square, .integer n => .ok (.integer (n * n))
  | square, .double x => .ok (.double (x * x))
  | squareRoot, .integer n => .ok (.double n.toFloat.sqrt)
  | squareRoot, .double x => .ok (.double x.sqrt)
  | _, _ => .error .mismatch

end UnaryOperation

namespace BinaryOperation

/-- Applies an operation to integers. They wrap around; division cuts off towards zero. -/
def onIntegers : BinaryOperation → Int32 → Int32 → Except Failure Int32
  | addition, m, n => .ok (m + n)
  | subtraction, m, n => .ok (m - n)
  | multiplication, m, n => .ok (m * n)
  | division, m, n => if n = 0 then .error (.fault ⟨.quotient, m⟩) else .ok (m / n)
  | modulo, m, n => if n = 0 then .error (.fault ⟨.remainder, m⟩) else .ok (m % n)
  | exponentiation, m, n => .ok (integerPower m n)
  | logicalAnd, _, _ => .error .mismatch
  | logicalOr, _, _ => .error .mismatch

/-- Applies an operation to doubles. -/
def onDoubles : BinaryOperation → Float → Float → Except Failure Float
  | addition, x, y => .ok (x + y)
  | subtraction, x, y => .ok (x - y)
  | multiplication, x, y => .ok (x * y)
  | division, x, y => .ok (x / y)
  | modulo, x, y => .ok (Double.remainder x y)
  | exponentiation, x, y => .ok (x.pow y)
  | logicalAnd, _, _ => .error .mismatch
  | logicalOr, _, _ => .error .mismatch

/-- Applies an operation to booleans. -/
def onBooleans : BinaryOperation → Bool → Bool → Except Failure Bool
  | logicalAnd, a, b => .ok (a && b)
  | logicalOr, a, b => .ok (a || b)
  | _, _, _ => .error .mismatch

/-- Applies an operation to two values of one type. -/
def apply (o : BinaryOperation) : Value → Value → Except Failure Value
  | .integer m, .integer n => (o.onIntegers m n).map .integer
  | .double x, .double y => (o.onDoubles x y).map .double
  | .boolean a, .boolean b => (o.onBooleans a b).map .boolean
  | _, _ => .error .mismatch

end BinaryOperation

/-! ## Expressions -/

/-- The value of an expression, or the first failure from left to right. -/
def TypedExpression.evaluate : TypedExpression → Except Failure Value
  | literal v => .ok v
  | unary o e => do
    let operand ← e.evaluate
    o.operation.apply operand
  | binary l o r => do
    let left ← l.evaluate
    let right ← r.evaluate
    o.operation.apply left right
  | parenthesized e => e.evaluate

end Reckoner
