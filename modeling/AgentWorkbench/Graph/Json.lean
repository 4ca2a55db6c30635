import AgentWorkbench.Graph.Basic
import AgentWorkbench.Json.Printer
import AgentWorkbench.Json.Record

/-!
The JSON form of pipeline graphs. Writing keeps the declaration order of the fields and leaves out
an absent error; reading fills in every field that has a default.
-/
namespace AgentWorkbench

namespace Position

def toJson (p : Position) : Json :=
  .obj [("x", .num (.float p.x)), ("y", .num (.float p.y))]

structure Draft where
  x : Option Binary64 := none
  y : Option Binary64 := none

def fields : List (JsonField Draft) :=
  [.of "x" (·.x) (fun s v => { s with x := some v }) fun _ => JsonReader.binary64,
    .of "y" (·.y) (fun s v => { s with y := some v }) fun _ => JsonReader.binary64]

def reader : (depth : Nat) → JsonReader Position :=
  JsonReader.record fields {} fun s => do return { x := ← s.x, y := ← s.y }

end Position

namespace GraphNode

def toJson (n : GraphNode) : Json :=
  .obj [("id", .str n.id), ("label", .str n.label), ("docstring", .str n.docstring),
    ("functionArguments", .arr (n.functionArguments.map .str)), ("prompt", .str n.prompt),
    ("model", .str n.model), ("position", n.position.toJson)]

structure Draft where
  id : Option String := none
  label : Option String := none
  docstring : Option String := none
  functionArguments : Option (List String) := none
  prompt : Option String := none
  model : Option String := none
  position : Option Position := none

def fields : List (JsonField Draft) :=
  [.of "id" (·.id) (fun s v => { s with id := some v }) fun _ => JsonReader.text,
    .of "label" (·.label) (fun s v => { s with label := some v }) fun _ => JsonReader.text,
    .of "docstring" (·.docstring) (fun s v => { s with docstring := some v })
      fun _ => JsonReader.text,
    .of "functionArguments" (·.functionArguments)
      (fun s v => { s with functionArguments := some v })
      (JsonReader.list fun _ => JsonReader.text),
    .of "prompt" (·.prompt) (fun s v => { s with prompt := some v }) fun _ => JsonReader.text,
    .of "model" (·.model) (fun s v => { s with model := some v }) fun _ => JsonReader.text,
    .of "position" (·.position) (fun s v => { s with position := some v }) Position.reader]

def reader : (depth : Nat) → JsonReader GraphNode :=
  JsonReader.record fields {} fun s => do
    return {
      id := ← s.id
      label := ← s.label
      docstring := s.docstring.getD ""
      functionArguments := s.functionArguments.getD []
      prompt := s.prompt.getD ""
      model := s.model.getD ""
      position := s.position.getD {} }

end GraphNode

namespace GraphEdge

def toJson (e : GraphEdge) : Json :=
  .obj [("id", .str e.id), ("source", .str e.source), ("target", .str e.target),
    ("metadata", .obj e.metadata)]

structure Draft where
  id : Option String := none
  source : Option String := none
  target : Option String := none
  metadata : Option (List (String × Json)) := none

def fields : List (JsonField Draft) :=
  [.of "id" (·.id) (fun s v => { s with id := some v }) fun _ => JsonReader.text,
    .of "source" (·.source) (fun s v => { s with source := some v }) fun _ => JsonReader.text,
    .of "target" (·.target) (fun s v => { s with target := some v }) fun _ => JsonReader.text,
    .of "metadata" (·.metadata) (fun s v => { s with metadata := some v })
      JsonReader.freeMembers]

def reader : (depth : Nat) → JsonReader GraphEdge :=
  JsonReader.record fields {} fun s => do
    return {
      id := ← s.id
      source := ← s.source
      target := ← s.target
      metadata := s.metadata.getD [] }

end GraphEdge

namespace PipelineGraph

def toJson (g : PipelineGraph) : Json :=
  .obj ([("nodes", .arr (g.nodes.map GraphNode.toJson)),
    ("edges", .arr (g.edges.map GraphEdge.toJson))] ++
      g.error.toList.map fun message => ("error", .str message))

structure Draft where
  nodes : Option (List GraphNode) := none
  edges : Option (List GraphEdge) := none
  error : Option (Option String) := none

def fields : List (JsonField Draft) :=
  [.of "nodes" (·.nodes) (fun s v => { s with nodes := some v })
      (JsonReader.list GraphNode.reader),
    .of "edges" (·.edges) (fun s v => { s with edges := some v })
      (JsonReader.list GraphEdge.reader),
    .of "error" (·.error) (fun s v => { s with error := some v })
      fun _ => JsonReader.optional JsonReader.text]

def reader : (depth : Nat) → JsonReader PipelineGraph :=
  JsonReader.record fields {} fun s => do
    return { nodes := ← s.nodes, edges := ← s.edges, error := s.error.getD none }

def parse (text : String) : Except JsonError PipelineGraph :=
  JsonReader.run (reader JsonReader.depthLimit) text.toList

def compact (g : PipelineGraph) : String := g.toJson.compact

def pretty (g : PipelineGraph) : String := g.toJson.pretty

end PipelineGraph

def GraphNode.parse (text : String) : Except JsonError GraphNode :=
  JsonReader.run (reader JsonReader.depthLimit) text.toList

end AgentWorkbench
