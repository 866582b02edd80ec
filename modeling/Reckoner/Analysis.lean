import Reckoner.Evaluation
import Reckoner.Expression.Parser
import Reckoner.Typing

/-!
# Lines

A line is read, typed and, if nothing is wrong with it, evaluated.

* `Analysis.ofString`: a line, read and typed, with everything that is wrong with it.
* `evaluate`: what a line comes to.
-/

namespace Reckoner

/-- A line that was read and typed. -/
structure Analysis where
  parsed : ParsedLine
  typed : TypedExpression
  /-- The notes of lexer, parser and typing, in this order. -/
  diagnostics : Array Diagnostic

/-- What a line comes to: a value, or the reasons why it has none. -/
inductive Answer where
  | value (value : Value)
  | diagnostics (diagnostics : Array Diagnostic)

namespace Analysis

/-- A line, read and typed. -/
def ofString (line : String) : Analysis :=
  let parsed := ParsedLine.ofString line
  let typed := parsed.root.elaborate parsed.diagnostics
  { parsed, typed := typed.1, diagnostics := typed.2 }

/-- What the line comes to. Any diagnostic at all keeps it from being evaluated. -/
def evaluate (a : Analysis) : Except Failure Answer :=
  if a.diagnostics.isEmpty then a.typed.evaluate.map .value else .ok (.diagnostics a.diagnostics)

end Analysis

/-- What a line comes to. -/
def evaluate (line : String) : Except Failure Answer :=
  (Analysis.ofString line).evaluate

end Reckoner
