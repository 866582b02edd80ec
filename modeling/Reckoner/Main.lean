import Reckoner.CommandLine

/-!
# The program

Reads the arguments and the input, and writes what the commands answer. A session is answered line
by line, so that each prompt is seen before its line is read.
-/

namespace Reckoner

/-- The bytes of a stream up to the next line feed, with it, behind those already read. -/
partial def readLine (input : IO.FS.Stream) (read : Array UInt8 := #[]) : IO (Array UInt8) := do
  let chunk ← input.read 1
  match chunk.data[0]? with
  | none => return read
  | some b => if b = 0x0a then return read.push b else readLine input (read.push b)

/-- Answers the lines of the input one by one. -/
partial def serve (session : Session) (input output : IO.FS.Stream) : IO Exit := do
  output.putStr Session.prompt
  output.flush
  match Text.Lines.cut (← readLine input).toList with
  | [] => return .success
  | line :: _ =>
    match session.respond line with
    | .stop exit => return exit
    | .resume after text =>
      output.putStr text
      serve after input output

/-- Runs the command that the arguments name. -/
def program (arguments : List String) : IO UInt32 := do
  let output ← IO.getStdout
  match Command.ofArguments? arguments with
  | some (.session showTree) =>
    let exit ← serve { showTree } (← IO.getStdin) output
    return exit.code
  | _ =>
    let outcome := Command.runArguments arguments []
    output.putStr outcome.output
    return outcome.exit.code

end Reckoner

/-- The entry of the program. -/
def main (arguments : List String) : IO UInt32 :=
  Reckoner.program arguments
