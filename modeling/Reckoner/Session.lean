import Reckoner.Analysis
import Reckoner.Expression.Outline
import Reckoner.Text.Lines

/-!
# Sessions

A session prompts for a line, answers it and prompts again. A blank line ends it, and a line that
is no text breaks it off. A line of its own turns the drawing of trees on and off; that is all that
one line can change for the next.

* `Session.respond`: the answer to one line.
* `Session.run`: the answers to a stream of bytes.
-/

namespace Reckoner

/-- How a program ends. -/
inductive Exit where
  | success
  /-- A line of the input is not UTF-8. -/
  | unreadable
  /-- The arguments are not understood. -/
  | usage
  /-- Something is wrong with the line. -/
  | diagnostics
  /-- The evaluation failed. -/
  | fault
deriving DecidableEq

/-- The number with which a program ends. -/
def Exit.code : Exit → UInt32
  | success => 0
  | unreadable => 1
  | usage => 2
  | diagnostics => 65
  | fault => 70

/-- What a program writes, and how it ends. -/
structure Outcome where
  output : String
  exit : Exit

/-- The answer to one line: its outline if that is asked for, and its value if it has one. -/
def answer (showTree : Bool) (line : String) : Outcome :=
  let analysis := Analysis.ofString line
  let tree := if showTree then analysis.parsed.root.outline else ""
  match analysis.evaluate with
  | .ok (.value v) => ⟨tree ++ v.text ++ "\n", .success⟩
  | .ok (.diagnostics _) => ⟨tree, .diagnostics⟩
  | .error _ => ⟨tree, .fault⟩

/-- What one line can change for the next. -/
structure Session where
  showTree : Bool := false

namespace Session

/-- What a session does with a line. -/
inductive Reaction where
  | resume (session : Session) (output : String)
  | stop (exit : Exit)

/-- What is written before a line is read. -/
def prompt : String := "> "

/-- The line that turns the drawing of trees on and off. -/
def toggle : String := "#tree"

/-- Turns the drawing of trees on or off. -/
def toggled (s : Session) : Session :=
  { s with showTree := !s.showTree }

/-- Says whether trees are drawn. -/
def notice (s : Session) : String :=
  if s.showTree then "showing syntax trees\n" else "not showing syntax trees\n"

/-- What a session does with a line of text. -/
def respondText (s : Session) (line : String) : Reaction :=
  let trimmed := Text.trim line.toList
  if trimmed.isEmpty then .stop .success
  else if trimmed = toggle.toList then .resume s.toggled s.toggled.notice
  else .resume s (answer s.showTree line).output

/-- What a session does with the bytes of a line. -/
def respond (s : Session) (line : List UInt8) : Reaction :=
  match Text.Lines.decode? line with
  | some text => s.respondText text
  | none => .stop .unreadable

/-- What a session writes for the given lines, and how it ends. -/
def runLines (s : Session) : List (List UInt8) → Outcome
  | [] => ⟨prompt, .success⟩
  | line :: lines =>
    match s.respond line with
    | .stop exit => ⟨prompt, exit⟩
    | .resume after output =>
      let later := after.runLines lines
      ⟨prompt ++ output ++ later.output, later.exit⟩

/-- What a session writes for a stream of bytes, and how it ends. -/
def run (s : Session) (input : List UInt8) : Outcome :=
  s.runLines (Text.Lines.cut input)

end Session

end Reckoner
