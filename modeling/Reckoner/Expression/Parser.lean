import Reckoner.Expression
import Reckoner.Token.Lexer

/-!
# Reading expressions

An expression is read by precedence: an operand, and behind it every binary operator that binds
tighter than what stands before the operand. Nothing is refused. Where a token is missing an empty
one takes its place and the fault is noted.

The levels are limited in two ways: no expression is opened inside `limit` open ones, and no
operator is applied to a left operand that is `limit` levels high. Where the limit is reached the
rest of the line is given up, which is noted once; the expressions that are open then close without
further notes. The limit is a parameter, and `none` is no limit.

* `Parser.nested`: an expression above a minimum of precedence.
* `Parser.operand`, `Parser.chain`: its first operand, and the operators behind that.
* `Parser.finish`: what is left of a line is one expression.
* `Parser.series`: several expressions off one line.
-/

namespace Reckoner

/-- The limit on the levels of an expression. -/
def nestingLimit : Nat := 256

/-- A place between the tokens of a line, with what was noted before it. -/
structure Parser where
  /-- The tokens from this place on, without separators and without the end of the line. -/
  rest : List Token
  /-- Where the line ends. -/
  stop : Nat
  /-- How many expressions are open. -/
  depth : Nat := 0
  /-- Whether the rest of the line was given up. -/
  abandoned : Bool := false
  diagnostics : Array Diagnostic := #[]

/-- An expression read from tokens of which at most `bound` are left. -/
structure Parsed (bound : Nat) where
  expression : Expression
  height : Nat
  after : Parser
  length_le : after.rest.length ≤ bound

/-- A line that was read as one expression. -/
structure ParsedLine where
  root : Expression
  ending : Token
  diagnostics : Array Diagnostic

namespace Parser

/-- The place before the first token of a line. -/
def ofString (line : String) : Parser :=
  let drained := (Lexer.ofString line).drain
  { rest := drained.1.toList.filter fun t => !t.kind.isSeparator && t.kind != .ending
    stop := drained.2.position
    diagnostics := drained.2.diagnostics }

/-- The token at this place. -/
def current (p : Parser) : Token :=
  p.rest.head?.getD (.ending p.stop)

/-- The place behind that token; the end of the line is not left. -/
def advance (p : Parser) : Parser :=
  { p with rest := p.rest.tail }

/-- Notes a complaint about the token at this place. -/
def report (complaint : Complaint) (p : Parser) : Parser :=
  if p.abandoned then p
  else { p with diagnostics := p.diagnostics.push ⟨p.current.span, complaint⟩ }

/-- Opens an expression. -/
def enter (p : Parser) : Parser :=
  { p with depth := p.depth + 1 }

/-- Closes an expression. -/
def leave (p : Parser) : Parser :=
  { p with depth := p.depth - 1 }

/-- Gives up the rest of the line. -/
def abandon (limit : Nat) (p : Parser) : Parser :=
  { p.report (.nestedTooDeep limit) with rest := [], abandoned := true }

/-- A token of the given kind: the one at this place if it is of that kind, else an empty one. -/
def expect (kind : TokenKind) (p : Parser) : Token × Parser :=
  if p.current.kind = kind then (p.current, p.advance)
  else (.missing kind p.current.position, p.report (.unexpectedToken p.current.kind kind))

/-- The precedence of the unary operator at this place, if it is not below the minimum. -/
def unaryAt? (minimum : Nat) (p : Parser) : Option Nat :=
  p.current.kind.unaryPrecedence?.filter (minimum ≤ ·)

/-- The precedence of the binary operator at this place, if it is above the minimum. -/
def binaryAt? (minimum : Nat) (p : Parser) : Option Nat :=
  p.current.kind.binaryPrecedence?.filter (minimum < ·)

/-- The limit, if `count` levels reach it. -/
def reached? (limit : Option Nat) (count : Nat) : Option Nat :=
  limit.filter (· ≤ count)

/-! ## How many tokens are left -/

@[simp] theorem rest_report (complaint : Complaint) (p : Parser) :
    (p.report complaint).rest = p.rest := by
  unfold report
  split <;> rfl

theorem length_advance_le (p : Parser) : p.advance.rest.length ≤ p.rest.length := by
  simp [advance]

theorem length_advance_lt {p : Parser} (h : p.current.kind ≠ .ending) :
    p.advance.rest.length < p.rest.length := by
  cases hrest : p.rest with
  | nil => simp [current, hrest, Token.ending, Token.missing] at h
  | cons t ts => simp [advance, hrest]

theorem length_expect_le (kind : TokenKind) (p : Parser) :
    (p.expect kind).2.rest.length ≤ p.rest.length := by
  unfold expect
  split
  · exact length_advance_le p
  · simp

theorem length_advance_lt_of_unaryAt? {minimum q : Nat} {p : Parser}
    (h : p.unaryAt? minimum = some q) : p.advance.rest.length < p.rest.length := by
  refine length_advance_lt fun hk => ?_
  simp [unaryAt?, hk, TokenKind.unaryPrecedence?] at h

theorem length_advance_lt_of_binaryAt? {minimum q : Nat} {p : Parser}
    (h : p.binaryAt? minimum = some q) : p.advance.rest.length < p.rest.length := by
  refine length_advance_lt fun hk => ?_
  simp [binaryAt?, hk, TokenKind.binaryPrecedence?] at h

/-! ## Expressions -/

mutual

/-- An expression: an operand, and the binary operators behind it that bind tighter than `minimum`.
At the limit it is an empty literal. -/
def nested (limit : Option Nat) (minimum : Nat) (p : Parser) : Parsed p.rest.length :=
  match reached? limit p.depth with
  | some n =>
    { expression := .literal (.missing .number p.current.position)
      height := 1
      after := p.abandon n
      length_le := Nat.zero_le _ }
  | none =>
    let first := operand limit minimum p.enter
    let whole := chain limit minimum first.expression first.height first.after
    { expression := whole.expression
      height := whole.height
      after := whole.after.leave
      length_le := Nat.le_trans whole.length_le first.length_le }
termination_by 2 * p.rest.length + 1
decreasing_by
  · exact Nat.lt_succ_self _
  · exact Nat.lt_succ_of_le (Nat.mul_le_mul_left 2 first.length_le)

/-- The operand at the start of an expression: a unary operator and what it applies to, an
expression in parentheses, or a literal. -/
def operand (limit : Option Nat) (minimum : Nat) (p : Parser) : Parsed p.rest.length :=
  match _h : p.unaryAt? minimum with
  | some q =>
    let inner := nested limit q p.advance
    { expression := .unary p.current inner.expression
      height := inner.height + 1
      after := inner.after
      length_le := Nat.le_trans inner.length_le p.length_advance_le }
  | none =>
    match _h : p.current.kind with
    | .openParen =>
      let inner := nested limit 0 p.advance
      let closing := inner.after.expect .closeParen
      { expression := .parenthesized p.current inner.expression closing.1
        height := inner.height + 1
        after := closing.2
        length_le := Nat.le_trans (length_expect_le _ _)
          (Nat.le_trans inner.length_le p.length_advance_le) }
    | .trueWord | .falseWord =>
      { expression := .literal p.current
        height := 1
        after := p.advance
        length_le := p.length_advance_le }
    | _ =>
      let number := p.expect .number
      { expression := .literal number.1
        height := 1
        after := number.2
        length_le := length_expect_le _ _ }
termination_by 2 * p.rest.length
decreasing_by
  · have := length_advance_lt_of_unaryAt? _h
    omega
  · have := length_advance_lt (p := p) (by simp [_h])
    omega

/-- The expression `left` and every binary operator behind it that binds tighter than `minimum`,
each with a right operand that holds only operators tighter still. -/
def chain (limit : Option Nat) (minimum : Nat) (left : Expression) (height : Nat) (p : Parser) :
    Parsed p.rest.length :=
  match _h : p.binaryAt? minimum with
  | none => { expression := left, height, after := p, length_le := Nat.le_refl _ }
  | some q =>
    match reached? limit height with
    | some n =>
      { expression := left, height, after := p.abandon n, length_le := Nat.zero_le _ }
    | none =>
      let right := nested limit q p.advance
      let whole := chain limit minimum (.binary left p.current right.expression)
        (max height right.height + 1) right.after
      { expression := whole.expression
        height := whole.height
        after := whole.after
        length_le := Nat.le_trans whole.length_le
          (Nat.le_trans right.length_le p.length_advance_le) }
termination_by 2 * p.rest.length
decreasing_by
  · have := length_advance_lt_of_binaryAt? _h
    omega
  · exact Nat.mul_lt_mul_of_pos_left
      (Nat.lt_of_le_of_lt right.length_le (length_advance_lt_of_binaryAt? _h)) Nat.two_pos

end

/-- What is left of the line, read as one expression. -/
def finish (limit : Option Nat) (p : Parser) : ParsedLine :=
  let whole := nested limit 0 p
  let ending := whole.after.expect .ending
  { root := whole.expression, ending := ending.1, diagnostics := ending.2.diagnostics }

/-- Expressions above the given minimums, read one behind the other, and the place behind them. -/
def series (limit : Option Nat) : List Nat → Parser → List Expression × Parser
  | [], p => ([], p)
  | minimum :: later, p =>
    let whole := nested limit minimum p
    let behind := series limit later whole.after
    (whole.expression :: behind.1, behind.2)

end Parser

/-- A line, read as one expression. -/
def ParsedLine.ofString (line : String) (limit : Option Nat := some nestingLimit) : ParsedLine :=
  (Parser.ofString line).finish limit

/-- Expressions that were read off a line one behind the other, and what was left of it. -/
structure ParsedSeries where
  expressions : List Expression
  last : ParsedLine

/-- A line, read as expressions above the given minimums; what they leave of it is one more. -/
def ParsedSeries.ofString (line : String) (minimums : List Nat)
    (limit : Option Nat := some nestingLimit) : ParsedSeries :=
  let read := (Parser.ofString line).series limit minimums
  { expressions := read.1, last := read.2.finish limit }

end Reckoner
