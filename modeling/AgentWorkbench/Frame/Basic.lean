import AgentWorkbench.Text.Blank

/-!
Frames: blocks of structured output between two sentinel lines of a program's standard output.
A sentinel line may end in blanks and a carriage return.
-/
namespace AgentWorkbench

inductive FrameKind where
  | graph
  | timings
  deriving DecidableEq, Repr, Inhabited

namespace FrameKind

def name : FrameKind → String
  | graph => "graph"
  | timings => "timings"

def beginMarker : FrameKind → String
  | graph => "---GRAPH_STRUCTURE_BEGIN---"
  | timings => "---TIMINGS_JSON_BEGIN---"

def endMarker : FrameKind → String
  | graph => "---GRAPH_STRUCTURE_END---"
  | timings => "---TIMINGS_JSON_END---"

def parse? (text : String) : Option FrameKind :=
  if text = "graph" then some graph
  else if text = "timings" then some timings
  else none

def unknownMessage (text : String) : String :=
  "unknown frame kind '" ++ text ++ "', expected graph/timings"

def wrap (kind : FrameKind) (payload : String) : String :=
  kind.beginMarker ++ "\n" ++ payload ++ "\n" ++ kind.endMarker ++ "\n"

end FrameKind

namespace Frame

def isTrailingBlank (c : Char) : Bool := c = ' ' || c = '\t'

end Frame

end AgentWorkbench
