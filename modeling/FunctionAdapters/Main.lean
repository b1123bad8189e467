import FunctionAdapters.CommandLine.Run

/-!
The command itself: reads the files that the arguments name, and prints what the run gives.
-/

namespace FunctionAdapters.CommandLine

/-- Reads a file. -/
def readPath (path : String) : IO (Except ReadError String) := do
  try
    return .ok (← IO.FS.readFile path)
  catch
    | .noFileOrDirectory .. => return .error .notFound
    | e => return .error (.other (toString e))

/-- Carries out a command and gives its exit code. -/
def carryOut (args : List String) : IO UInt32 := do
  let paths := ((Command.ofArgs args).map Command.paths).getD []
  let files ← paths.mapM fun path => do return (path, ← readPath path)
  let read := fun path => (files.lookup path).getD (.error .notFound)
  let some outcome := run ⟨read, ← IO.getEnv "RUST_LOG"⟩ args
    | return 134 -- a run that does not end uses up the stack, and its process is aborted
  for report in outcome.reports do
    match report with
    | .record level message => IO.eprintln (level.name ++ " " ++ Log.planTarget ++ ": " ++ message)
    | .text line => IO.eprintln line
    | .usage text => IO.eprint text
  IO.print outcome.stdout
  return outcome.code

end FunctionAdapters.CommandLine

def main (args : List String) : IO UInt32 := FunctionAdapters.CommandLine.carryOut args
