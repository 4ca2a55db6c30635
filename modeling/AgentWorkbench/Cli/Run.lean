import AgentWorkbench.Cli.Arguments
import AgentWorkbench.Extraction.Pipeline
import AgentWorkbench.Frame.Scanner
import AgentWorkbench.Frame.Strip
import AgentWorkbench.Graph.Json
import AgentWorkbench.Instrument.Basic
import AgentWorkbench.Workspace.FileError

/-!
What the commands do with the files they read: what they print, what they write, and their exit
codes.
-/
namespace AgentWorkbench

structure CommandOutcome where
  exit : Nat := 0
  stdout : String := ""
  stderr : String := ""
  /-- A file that is written before anything is printed, with its content. -/
  write : Option (String × String) := none
  deriving DecidableEq, Repr

namespace Command

def extractionFailed : Nat := 1

def noFrame : Nat := 1

def usageError : Nat := 2

def fileFailed : Nat := 3

def file : Command → String
  | instrument file _ | extract file | frames file _ _ => file

def readFailure (file : String) (e : FileError) : CommandOutcome where
  exit := fileFailed
  stderr := "Error: failed to read '" ++ file ++ "': " ++ e.message ++ "\n"

def writeFailure (file : String) (e : FileError) : CommandOutcome where
  exit := fileFailed
  stderr := "Error: failed to write '" ++ file ++ "': " ++ e.message ++ "\n"

def runInstrument (source : String) : Option String → CommandOutcome
  | none => { stdout := AgentWorkbench.instrument source }
  | some output => { write := some (output, AgentWorkbench.instrument source) }

def runExtract (source : String) : CommandOutcome :=
  match Extraction.extract? source with
  | .ok graph => { stdout := graph.pretty ++ "\n" }
  | .error e => {
      exit := extractionFailed
      stdout := (PipelineGraph.failed e.message).pretty ++ "\n"
      stderr := "Extraction error: " ++ e.message ++ "\n" }

def runFrames (buffer : String) (kind : FrameKind) (strip : Bool) : CommandOutcome :=
  if strip then { stdout := String.ofList (Frame.strip kind buffer.toList) }
  else
    match extractFrame (fun text => (Json.parse text).toOption) kind buffer.toList with
    | some payload => { stdout := payload.pretty ++ "\n" }
    | none => {
        exit := noFrame
        stderr := "Error: no complete " ++ kind.beginMarker ++ " frame found\n" }

/-- The effects of a command whose file holds this text. -/
def run (command : Command) (text : String) : CommandOutcome :=
  match command with
  | instrument _ output => runInstrument text output
  | extract _ => runExtract text
  | frames _ kind strip => runFrames text kind strip

end Command

end AgentWorkbench
