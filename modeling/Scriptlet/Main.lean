/-
**The program**: read the arguments and the file they name, answer, and exit.
-/

import Scriptlet.CommandLine

namespace Scriptlet

/-- The contents of a file, if it can be read. -/
def readContents (path : String) : IO (Option ByteArray) := do
  try
    return some (← IO.FS.readBinFile path)
  catch _ =>
    return none

/-- Write a response and give its exit code. -/
def deliver (response : Response) : IO UInt32 := do
  let output ← IO.getStdout
  output.write ⟨response.output⟩
  output.flush
  (← IO.getStderr).putStr response.errorText
  return response.exitCode

/-- Answer a command line. -/
def answer (arguments : List String) : IO UInt32 := do
  let request := Request.ofArguments arguments
  let contents ← match request.path? with
    | some path => readContents path
    | none => pure none
  match request.respond ampleFuel fun _ => contents with
  | some response => deliver response
  | none => return 1

end Scriptlet

/-- The entry point. -/
def main (arguments : List String) : IO UInt32 := Scriptlet.answer arguments
