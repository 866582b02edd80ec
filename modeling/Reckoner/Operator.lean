import Reckoner.Token

/-!
# Operators and their overloads

An operator is written with a token, and what it does depends on the types of its operands. The
overloads say which operation a token stands for at which types.

* `UnaryOverload.find?`, `BinaryOverload.find?`: the overload of a token at given types.
-/

namespace Reckoner

/-- What a unary operator does. -/
inductive UnaryOperation where
  | identity
  | negation
  | logicalNegation
  | square
  | squareRoot
deriving DecidableEq

/-- The name under which an operation is shown. -/
def UnaryOperation.name : UnaryOperation → String
  | identity => "Identity"
  | negation => "Negation"
  | logicalNegation => "LogicalNegation"
  | square => "Square"
  | squareRoot => "SquareRoot"

/-- What a binary operator does. -/
inductive BinaryOperation where
  | addition
  | subtraction
  | multiplication
  | division
  | modulo
  | exponentiation
  | logicalAnd
  | logicalOr
deriving DecidableEq

/-- The name under which an operation is shown. -/
def BinaryOperation.name : BinaryOperation → String
  | addition => "Addition"
  | subtraction => "Subtraction"
  | multiplication => "Multiplication"
  | division => "Division"
  | modulo => "Modulo"
  | exponentiation => "Exponentiation"
  | logicalAnd => "LogicalAnd"
  | logicalOr => "LogicalOr"

/-- A unary operator at one type. -/
structure UnaryOverload where
  token : TokenKind
  operation : UnaryOperation
  operand : ValueType
  result : ValueType
deriving DecidableEq

/-- A binary operator at one pair of types. -/
structure BinaryOverload where
  token : TokenKind
  operation : BinaryOperation
  left : ValueType
  right : ValueType
  result : ValueType
deriving DecidableEq

namespace UnaryOverload

/-- Every unary operator at every type at which it is defined. -/
def all : List UnaryOverload :=
  [ ⟨.plus, .identity, .integer, .integer⟩,
    ⟨.plus, .identity, .double, .double⟩,
    ⟨.minus, .negation, .integer, .integer⟩,
    ⟨.minus, .negation, .double, .double⟩,
    ⟨.bang, .logicalNegation, .boolean, .boolean⟩,
    ⟨.sqrWord, .square, .integer, .integer⟩,
    ⟨.sqrWord, .square, .double, .double⟩,
    ⟨.sqrtWord, .squareRoot, .integer, .double⟩,
    ⟨.sqrtWord, .squareRoot, .double, .double⟩ ]

/-- The overload of a token at a type. -/
def find? (token : TokenKind) (operand : ValueType) : Option UnaryOverload :=
  all.find? fun o => o.token = token ∧ o.operand = operand

theorem find?_spec {token : TokenKind} {operand : ValueType} {o : UnaryOverload}
    (h : find? token operand = some o) : o ∈ all ∧ o.token = token ∧ o.operand = operand :=
  ⟨List.mem_of_find?_eq_some h, by simpa using List.find?_some h⟩

end UnaryOverload

namespace BinaryOverload

/-- The overload at two operands of one type. -/
def same (token : TokenKind) (operation : BinaryOperation) (type : ValueType) : BinaryOverload :=
  ⟨token, operation, type, type, type⟩

/-- Every binary operator at every pair of types at which it is defined. -/
def all : List BinaryOverload :=
  [ same .plus .addition .integer,
    same .minus .subtraction .integer,
    same .times .multiplication .integer,
    same .slash .division .integer,
    same .percent .modulo .integer,
    same .caret .exponentiation .integer,
    same .plus .addition .double,
    same .minus .subtraction .double,
    same .times .multiplication .double,
    same .slash .division .double,
    same .percent .modulo .double,
    same .caret .exponentiation .double,
    same .and .logicalAnd .boolean,
    same .or .logicalOr .boolean ]

/-- The overload of a token at a pair of types. -/
def find? (token : TokenKind) (left right : ValueType) : Option BinaryOverload :=
  all.find? fun o => o.token = token ∧ o.left = left ∧ o.right = right

theorem find?_spec {token : TokenKind} {left right : ValueType} {o : BinaryOverload}
    (h : find? token left right = some o) :
    o ∈ all ∧ o.token = token ∧ o.left = left ∧ o.right = right :=
  ⟨List.mem_of_find?_eq_some h, by simpa using List.find?_some h⟩

end BinaryOverload

end Reckoner
