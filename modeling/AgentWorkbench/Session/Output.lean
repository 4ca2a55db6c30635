import AgentWorkbench.Frame.Scanner
import AgentWorkbench.Frame.Strip
import AgentWorkbench.Graph.Json

/-!
The standard output of a session's process: the text so far, and a latch that lets one graph
through.
-/
namespace AgentWorkbench

structure OutputAccumulator where
  buffer : List Char := []
  graphEmitted : Bool := false
  /-- Looks for the graph frame; there is none if the program cannot print one. -/
  scanner : Option FrameScanner := some { kind := .graph }
  deriving DecidableEq, Repr

namespace OutputAccumulator

/-- For programs that print no graph frame. -/
def withoutGraph : OutputAccumulator := { scanner := none }

def decodeGraph (payload : String) : Option PipelineGraph :=
  (PipelineGraph.parse payload).toOption

def decodeTimings (payload : String) : Option Json :=
  (Json.parse payload).toOption

/-- Adds a chunk; the first time that a graph frame is complete and decodes, its graph comes out. -/
def append (acc : OutputAccumulator) (chunk : List Char) :
    Option PipelineGraph × OutputAccumulator :=
  let acc := { acc with buffer := acc.buffer ++ chunk }
  if acc.graphEmitted then (none, acc)
  else
    match acc.scanner with
    | none => (none, acc)
    | some scanner =>
      match scanner.poll decodeGraph acc.buffer with
      | (some graph, scanner) =>
        (some graph, { acc with graphEmitted := true, scanner := some scanner })
      | (none, scanner) => (none, { acc with scanner := some scanner })

/-- Closes the latch, for a graph that was found another way. -/
def markGraphEmitted (acc : OutputAccumulator) : OutputAccumulator :=
  { acc with graphEmitted := true }

/-- The output without its frames and without blanks at its ends. -/
def output (acc : OutputAccumulator) : String :=
  String.ofList (Text.trim (Frame.strip .timings (Frame.strip .graph acc.buffer)))

def timings (acc : OutputAccumulator) : Option Json :=
  extractFrame decodeTimings .timings acc.buffer

end OutputAccumulator

end AgentWorkbench
