import AgentWorkbench.Cli.Run
import AgentWorkbench.Text.Utf8

/-!
The program: reads the command line, reads the file, and prints or writes what the command gives.
-/
namespace AgentWorkbench

def usage : String :=
  "usage: flowgraph instrument FILE [--output FILE]\n" ++
  "       flowgraph extract FILE\n" ++
  "       flowgraph frames FILE [--kind graph|timings] [--strip]\n"

/-- The cause of a failure to use a file, as far as it is one of those that have messages. -/
def fileError? : IO.Error → Option FileError
  | .noFileOrDirectory .. => some .notFound
  | .permissionDenied .. => some .permissionDenied
  | .alreadyExists .. => some .alreadyExists
  | .inappropriateType .. => some .isDirectory
  | .invalidArgument .. => some .nameTooLong
  | _ => none

def readText (path : String) : IO (Except FileError String) := do
  try
    let octets ← IO.FS.readBinFile path
    match Text.Utf8.decode? octets.toList with
    | some text => return .ok (String.ofList text)
    | none => return .error .invalidText
  catch e =>
    match fileError? e with
    | some cause => return .error cause
    | none => throw e

def writeText (path text : String) : IO (Except FileError Unit) := do
  try
    IO.FS.writeFile path text
    return .ok ()
  catch e =>
    match fileError? e with
    | some cause => return .error cause
    | none => throw e

def perform (outcome : CommandOutcome) : IO UInt32 := do
  let outcome ← match outcome.write with
    | none => pure outcome
    | some (path, text) => do
      match ← writeText path text with
      | .ok () => pure outcome
      | .error e => pure (Command.writeFailure path e)
  IO.print outcome.stdout
  IO.eprint outcome.stderr
  return outcome.exit.toUInt32

end AgentWorkbench

open AgentWorkbench in
def main (args : List String) : IO UInt32 := do
  match Command.parse? args with
  | none =>
    IO.eprint usage
    return Command.usageError.toUInt32
  | some command =>
    match ← readText command.file with
    | .ok text => perform (command.run text)
    | .error e => perform (Command.readFailure command.file e)
