import Reckoner.Session

/-!
# The command line

The arguments name a command and its expression; without arguments a session starts. A flag that
asks for more messages may stand at any place and any number of times, and changes no answer.
Behind `--` no argument is a flag.

Help is left out: the arguments `--help`, `-h` and `help` end here like arguments that are not
understood, with nothing written, where the help text should be written and the end be a success.

* `Command.ofArguments?`: the command that the arguments name.
* `Command.run`: what a command writes, and how it ends.
-/

namespace Reckoner

/-- What the program can be asked to do. -/
inductive Command where
  | tokenize (expression : String)
  | parse (expression : String)
  | evaluate (expression : String)
  | session (showTree : Bool)
deriving DecidableEq

namespace Command

/-! ## Arguments -/

/-- Whether an argument is the flag that asks for more messages; its letter may be doubled. -/
def isVerbose (argument : String) : Bool :=
  argument = "--verbose" ||
    match argument.toList with
    | '-' :: 'v' :: more => more.all (· = 'v')
    | _ => false

/-- Whether an argument is taken for a flag. A dash by itself is none. -/
def isFlag (argument : String) : Bool :=
  argument.toList.head? = some '-' && argument != "-"

/-- The one expression among the arguments behind `--`, or the one before it. -/
def lastExpression? (found : Option String) (arguments : List String) : Option String :=
  match found.toList ++ arguments with
  | [expression] => some expression
  | _ => none

/-- The one expression among the arguments, of which `found` was met already. -/
def expression? (found : Option String) : List String → Option String
  | [] => found
  | argument :: more =>
    if argument = "--" then lastExpression? found more
    else if isVerbose argument then expression? found more
    else if isFlag argument || found.isSome then none
    else expression? (some argument) more

/-- Whether the arguments of a session ask for trees; that can be asked for once. -/
def showTree? (found : Bool) : List String → Option Bool
  | [] => some found
  | argument :: more =>
    if argument = "--" then if more.isEmpty then some found else none
    else if isVerbose argument then showTree? found more
    else if argument = "--show-tree" && !found then showTree? true more
    else none

/-- The command that the arguments name. A request for help names none. -/
def ofArguments? : List String → Option Command
  | [] => some (.session false)
  | argument :: more =>
    if isVerbose argument then ofArguments? more
    else if argument = "tokenize" then (expression? none more).map .tokenize
    else if argument = "parse" then (expression? none more).map .parse
    else if argument = "evaluate" then (expression? none more).map .evaluate
    else if argument = "repl" then (showTree? false more).map .session
    else if argument = "--" && more.isEmpty then some (.session false)
    else none

/-! ## Commands -/

/-- How a command about a line ends that notes faults but computes nothing. -/
def exitOf (diagnostics : Array Diagnostic) : Exit :=
  if diagnostics.isEmpty then .success else .diagnostics

/-- What a command writes, and how it ends. Only a session reads the input. -/
def run (input : List UInt8) : Command → Outcome
  | tokenize expression =>
    let drained := (Lexer.ofString expression).drain
    ⟨Text.Lines.join (drained.1.toList.map Token.listing), exitOf drained.2.diagnostics⟩
  | parse expression =>
    let parsed := ParsedLine.ofString expression
    ⟨parsed.root.outline, exitOf parsed.diagnostics⟩
  | evaluate expression => answer false expression
  | session showTree => Session.run { showTree } input

/-- What the program writes for the given arguments and input, and how it ends. -/
def runArguments (arguments : List String) (input : List UInt8) : Outcome :=
  match ofArguments? arguments with
  | some command => command.run input
  | none => ⟨"", .usage⟩

end Command

end Reckoner
