import AgentWorkbench.Json.Value

/-!
The graph of an agent pipeline: nodes for its handlers, edges for the routes between them. Edges
that end the pipeline lead to one synthetic output node, which closes the graph.
-/
namespace AgentWorkbench

structure Position where
  x : Binary64 := Binary64.zero
  y : Binary64 := Binary64.zero
  deriving DecidableEq, Repr, Inhabited

structure GraphNode where
  id : String
  label : String
  docstring : String := ""
  functionArguments : List String := []
  prompt : String := ""
  model : String := ""
  position : Position := {}
  deriving DecidableEq, Repr, Inhabited

structure GraphEdge where
  id : String
  source : String
  target : String
  metadata : List (String × Json) := []
  deriving Repr, Inhabited

structure PipelineGraph where
  nodes : List GraphNode := []
  edges : List GraphEdge := []
  error : Option String := none
  deriving Repr, Inhabited

/-- The id and label of the output node, and the target of edges that end the pipeline. -/
def outputNodeId : String := "output"

def outputNodeDocstring : String := "Aggregated output of every edge that ends the pipeline."

namespace Position

def spacingX : Nat := 250

def spacingY : Nat := 100

/-- `spacing * k` in floating point: both factors rounded, then the product. -/
def along (spacing k : Nat) : Binary64 :=
  ((Binary64.ofNat spacing).mul? (Binary64.ofNat k)).getD Binary64.zero

/-- Where the `k`-th node is drawn: nodes go down a diagonal. -/
def onDiagonal (k : Nat) : Position where
  x := along spacingX k
  y := along spacingY k

end Position

namespace PipelineGraph

/-- An empty graph that says why there is none. -/
def failed (message : String) : PipelineGraph :=
  { error := some message }

def isFailed (g : PipelineGraph) : Bool := g.error.isSome

def pushNode (g : PipelineGraph) (node : GraphNode) : PipelineGraph :=
  { g with nodes := g.nodes ++ [node] }

def edgeId (k : Nat) : String := "edge-" ++ Nat.repr k

/-- Adds an edge; its id is its number. -/
def pushEdge (g : PipelineGraph) (source target : String) : PipelineGraph :=
  { g with edges := g.edges ++ [{ id := edgeId g.edges.length, source, target }] }

def node? (g : PipelineGraph) (id : String) : Option GraphNode :=
  g.nodes.find? (·.id = id)

def hasTerminalEdge (g : PipelineGraph) : Bool :=
  g.edges.any (·.target = outputNodeId)

def outputNode (position : Position) : GraphNode where
  id := outputNodeId
  label := outputNodeId
  docstring := outputNodeDocstring
  position := position

/-- Adds the output node if an edge ends the pipeline. -/
def closeWithOutput (g : PipelineGraph) (position : Position) : PipelineGraph :=
  if g.hasTerminalEdge then g.pushNode (outputNode position) else g

end PipelineGraph

end AgentWorkbench
