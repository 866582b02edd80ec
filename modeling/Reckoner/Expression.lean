import Reckoner.Token

/-!
# Expressions

The tree of an expression keeps every token from which it was read, so that its leaves, from left
to right, are the tokens of the line.

* `Expression.nodes`: the tree in preorder, with the depth of each node.
* `Expression.height`: the number of expressions on the longest way down.
* `Expression.leaves`: the tokens from left to right.
-/

namespace Reckoner

/-- The tree of an expression. -/
inductive Expression where
  | literal (token : Token)
  | unary (operator : Token) (operand : Expression)
  | binary (left : Expression) (operator : Token) (right : Expression)
  | parenthesized (opening : Token) (inner : Expression) (closing : Token)

namespace Expression

/-- The ways to form an expression. -/
inductive Form where
  | literal
  | unary
  | binary
  | parenthesized
deriving DecidableEq

/-- The name under which a form is shown. -/
def Form.name : Form → String
  | literal => "LITERAL_EXPRESSION"
  | unary => "UNARY_EXPRESSION"
  | binary => "BINARY_EXPRESSION"
  | parenthesized => "PARENTHESIZED_EXPRESSION"

/-- How an expression is formed. -/
def form : Expression → Form
  | literal _ => .literal
  | unary _ _ => .unary
  | binary _ _ _ => .binary
  | parenthesized _ _ _ => .parenthesized

/-- A node of the tree: an expression by its form, or a token. -/
inductive Node where
  | expression (form : Form)
  | token (token : Token)

/-- The nodes in preorder, each with its depth; the root lies at `depth`. -/
def nodes (depth : Nat) : Expression → List (Nat × Node)
  | literal t => [(depth, .expression .literal), (depth + 1, .token t)]
  | unary op e => (depth, .expression .unary) :: (depth + 1, .token op) :: e.nodes (depth + 1)
  | binary l op r =>
    (depth, .expression .binary) :: l.nodes (depth + 1) ++
      (depth + 1, .token op) :: r.nodes (depth + 1)
  | parenthesized o e c =>
    (depth, .expression .parenthesized) :: (depth + 1, .token o) :: e.nodes (depth + 1) ++
      [(depth + 1, .token c)]

/-- The number of expressions on the longest way from the root to a literal. -/
def height : Expression → Nat
  | literal _ => 1
  | unary _ e => e.height + 1
  | binary l _ r => max l.height r.height + 1
  | parenthesized _ e _ => e.height + 1

/-- The tokens of the tree from left to right. -/
def leaves : Expression → List Token
  | literal t => [t]
  | unary op e => op :: e.leaves
  | binary l op r => l.leaves ++ op :: r.leaves
  | parenthesized o e c => o :: e.leaves ++ [c]

theorem height_pos (e : Expression) : 0 < e.height := by
  cases e <;> simp [height]

end Expression

end Reckoner
