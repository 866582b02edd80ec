import Reckoner.Expression
import Reckoner.Text.Lines

/-!
# Outlines

A tree drawn line by line: each node on a line of its own, behind a branch that leads down from its
parent. The branch of the last child bends, that of another child goes on to the next one.

* `Expression.outline`: one line for each node, in preorder.
-/

namespace Reckoner

namespace Outline

/-- The branch at the end of which a node stands. -/
def branch (last : Bool) : String :=
  if last then "└──" else "├──"

/-- What stands below the branch of a node, in front of its children. -/
def below (last : Bool) : String :=
  if last then "    " else "│   "

/-- The line of a node: what leads down to it, its branch and its label. -/
def line (lead : String) (last : Bool) (label : String) : String :=
  lead ++ branch last ++ label

end Outline

/-- The label of a token: the name of its kind, and the text of its value if it has one. -/
def Token.label (t : Token) : String :=
  match t.value with
  | some v => t.kind.name ++ " " ++ v.text
  | none => t.kind.name

/-- The line of a token. -/
def Token.line (lead : String) (last : Bool) (t : Token) : String :=
  Outline.line lead last t.label

/-- The outline of a token by itself. -/
def Token.outline (t : Token) : String :=
  Text.Lines.join [t.line "" true]

namespace Expression

/-- The lines of a tree behind `lead`; `last` says that its root is the last child. -/
def lines (lead : String) (last : Bool) : Expression → List String
  | literal t =>
    let inner := lead ++ Outline.below last
    [Outline.line lead last Form.literal.name, t.line inner true]
  | unary op e =>
    let inner := lead ++ Outline.below last
    Outline.line lead last Form.unary.name :: op.line inner false :: e.lines inner true
  | binary l op r =>
    let inner := lead ++ Outline.below last
    Outline.line lead last Form.binary.name :: l.lines inner false ++
      op.line inner false :: r.lines inner true
  | parenthesized o e c =>
    let inner := lead ++ Outline.below last
    Outline.line lead last Form.parenthesized.name :: o.line inner false :: e.lines inner false ++
      [c.line inner true]

/-- The outline of a tree. -/
def outline (e : Expression) : String :=
  Text.Lines.join (e.lines "" true)

end Expression

end Reckoner
