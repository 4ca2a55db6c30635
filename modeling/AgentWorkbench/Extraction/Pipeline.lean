import AgentWorkbench.Extraction.Handler
import AgentWorkbench.Graph.Basic

/-!
Recovering a pipeline's graph from its source. The calls of the builder function that register
nodes and edges are followed in the order of the text; each gives one node or one edge.
-/
namespace AgentWorkbench.Extraction

open Python

def builderName : String := "create_agent"

def terminalTargets : List String := ["END", "__end__"]

inductive Registration where
  | node
  | edge
  deriving DecidableEq, Repr

namespace Registration

def method : Registration → String
  | node => "add_node"
  | edge => "add_edge"

def ofMethod? (name : String) : Option Registration :=
  if name = node.method then some node
  else if name = edge.method then some edge
  else none

end Registration

inductive ExtractError where
  | invalidSyntax
  /-- A registration with fewer than two positional arguments. -/
  | missingArgument (registration : Registration) (line got : Nat)
  deriving DecidableEq, Repr

namespace ExtractError

def message : ExtractError → String
  | invalidSyntax => "invalid syntax"
  | missingArgument registration line got =>
    registration.method ++ "() at line " ++ Nat.repr line ++
      " needs 2 positional arguments, got " ++ Nat.repr got

end ExtractError

structure Registered where
  registration : Registration
  first : Expr
  second : Expr
  deriving Repr

def registered? (call : Call) : Except ExtractError (Option Registered) :=
  match call.method?.bind Registration.ofMethod? with
  | none => .ok none
  | some registration =>
    match call.args with
    | first :: second :: _ => .ok (some { registration, first, second })
    | args => .error (.missingArgument registration call.line args.length)

/-- The registrations of calls, up to the first that lacks an argument. -/
def registrations (calls : List Call) : Except ExtractError (List Registered) := do
  return (← calls.mapM registered?).filterMap id

/-- The last function with a name; only a bare name refers to a function. -/
def handler? (functions : List Function) (e : Expr) : Option Function := do
  let name ← e.name?
  functions.reverse.find? (·.name = name)

def edgeTarget (e : Expr) : String :=
  if terminalTargets.contains e.identifier then outputNodeId else e.identifier

def nodeOf (tree : SourceTree) (k : Nat) (r : Registered) : GraphNode :=
  let id := r.first.identifier
  let node : GraphNode := { id, label := id, position := Position.onDiagonal k }
  match handler? tree.functions r.second with
  | none => node
  | some handler =>
    { node with
      docstring := handler.docstring.getD ""
      functionArguments := handler.params
      prompt := prompt tree handler.node
      model := model tree (modelBindings tree) handler.node }

def register (tree : SourceTree) (g : PipelineGraph) (r : Registered) : PipelineGraph :=
  match r.registration with
  | .node => g.pushNode (nodeOf tree g.nodes.length r)
  | .edge => g.pushEdge r.first.identifier (edgeTarget r.second)

/-- The graph of a source tree; empty if there is no builder. -/
def graphOf (tree : SourceTree) : Except ExtractError PipelineGraph := do
  match tree.functions.find? (·.name = builderName) with
  | none => return {}
  | some builder =>
    let found ← registrations (tree.callsIn builder.node)
    let g := found.foldl (register tree) {}
    return g.closeWithOutput (Position.onDiagonal g.nodes.length)

def extract? (source : String) : Except ExtractError PipelineGraph :=
  match SourceTree.parse? source.toList with
  | none => .error .invalidSyntax
  | some tree => graphOf tree

/-- The graph of a source, or an empty graph that says what is wrong. -/
def extract (source : String) : PipelineGraph :=
  match extract? source with
  | .ok g => g
  | .error e => .failed e.message

end AgentWorkbench.Extraction
