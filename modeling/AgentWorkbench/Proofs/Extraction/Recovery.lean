import AgentWorkbench.Proofs.Extraction.BuilderTree

/-!
Recovering the graph of a builder. Each line gives its node or its edge, in order, and an edge that
ends the pipeline closes the graph with the output node.
-/
namespace AgentWorkbench.Extraction

open Python

namespace BuilderLine

def nodeId? : BuilderLine → Option String
  | node id => some id
  | edge _ _ => none

/-- The edge of a line; a name for the end of the pipeline stands for its output. -/
def route? : BuilderLine → Option (String × String)
  | node _ => none
  | edge source target =>
    some (source, if target = "END" ∨ target = "__end__" then "output" else target)

/-- Whether the edge of a line ends the pipeline. -/
def isTerminal : BuilderLine → Bool
  | node _ => false
  | edge _ target => target = "END" ∨ target = "__end__" ∨ target = "output"

end BuilderLine

/-- The graph of some lines before it is closed. -/
def drawn (lines : List BuilderLine) : PipelineGraph where
  nodes := (lines.filterMap (·.nodeId?)).mapIdx fun k id =>
    { id, label := id, position := .onDiagonal k }
  edges := (lines.filterMap (·.route?)).mapIdx fun k route =>
    { id := PipelineGraph.edgeId k, source := route.1, target := route.2 }

section Registering

variable {tree : SourceTree} {function : Function} (functions : tree.functions = [function])
  (name : function.name = builderName)

include functions name

/-- A line adds its node or its edge. -/
theorem register_drawn (lines : List BuilderLine) {line : BuilderLine} {r : Registered}
    (gives : line.Gives r) : register tree (drawn lines) r = drawn (lines ++ [line]) := by
  obtain ⟨registration, first, second⟩ := r
  obtain ⟨rfl, identifier, is_second⟩ := gives
  cases line with
  | node id =>
      obtain rfl : second = .name "h" := is_second
      have unknown : handler? tree.functions (.name "h") = none := by
        simp [handler?, Expr.name?, functions, name, builderName]
      simp only [register, BuilderLine.registration, nodeOf, unknown, PipelineGraph.pushNode, drawn,
        identifier, BuilderLine.first, List.filterMap_append, List.mapIdx_append]
      simp [BuilderLine.nodeId?, BuilderLine.route?]
  | edge source target =>
      have target_eq : edgeTarget second =
          if target = "END" ∨ target = "__end__" then "output" else target := by
        obtain rfl : second.identifier = target := is_second
        simp [edgeTarget, terminalTargets, outputNodeId]
      simp only [register, BuilderLine.registration, PipelineGraph.pushEdge, drawn, target_eq,
        identifier, BuilderLine.first, List.filterMap_append, List.mapIdx_append]
      simp [BuilderLine.nodeId?, BuilderLine.route?]

theorem foldl_register_drawn (before lines : List BuilderLine) {found : List Registered}
    (gives : List.Forall₂ BuilderLine.Gives lines found) :
    found.foldl (register tree) (drawn before) = drawn (before ++ lines) := by
  induction gives generalizing before with
  | nil => rw [List.append_nil]; rfl
  | cons first _ ih =>
      rw [List.foldl_cons, register_drawn functions name before first, ih, List.append_assoc]
      rfl

end Registering

theorem ids_drawn (lines : List BuilderLine) :
    (drawn lines).nodes.map (·.id) = lines.filterMap (·.nodeId?) := by
  change ((lines.filterMap (·.nodeId?)).mapIdx _).map _ = _
  rw [List.mapIdx_eq_zipIdx_map, List.map_map]
  exact List.zipIdx_map_fst 0 _

theorem routes_drawn (lines : List BuilderLine) :
    (drawn lines).edges.map (fun e => (e.source, e.target)) = lines.filterMap (·.route?) := by
  change ((lines.filterMap (·.route?)).mapIdx _).map _ = _
  rw [List.mapIdx_eq_zipIdx_map, List.map_map]
  exact List.zipIdx_map_fst 0 _

theorem hasTerminalEdge_drawn (lines : List BuilderLine) :
    (drawn lines).hasTerminalEdge = lines.any (·.isTerminal) := by
  have routes : (drawn lines).hasTerminalEdge =
      ((drawn lines).edges.map fun e => (e.source, e.target)).any (·.2 = "output") := by
    rw [List.any_map]
    rfl
  rw [routes, routes_drawn, List.any_filterMap]
  congr 1
  funext line
  cases line with
  | node _ => rfl
  | edge _ target =>
      refine Bool.eq_iff_iff.mpr ?_
      by_cases h : target = "END" ∨ target = "__end__" <;>
        simp [BuilderLine.route?, BuilderLine.isTerminal, h, ← or_assoc]

theorem registrations_cons {call : Call} {r : Registered} (h : registered? call = .ok (some r))
    {calls : List Call} {found : List Registered} (later : registrations calls = .ok found) :
    registrations (call :: calls) = .ok (r :: found) := by
  cases rest : calls.mapM registered? with
  | error e => simp [registrations, rest, bind, Except.bind] at later
  | ok more =>
      obtain rfl : more.filterMap id = found := by
        simpa [registrations, rest, bind, Except.bind, pure, Except.pure] using later
      simp [registrations, List.mapM_cons, h, rest, bind, Except.bind, pure, Except.pure]

/-- The statements of some lines give what the lines say. -/
theorem registrations_statements (tree : SourceTree) {lines : List BuilderLine}
    {statements : List Node} (good : List.Forall₂ BuilderLine.Statement lines statements) :
    ∃ found, registrations (callsBelow tree (statements.flatMap Node.children)) = .ok found ∧
      List.Forall₂ BuilderLine.Gives lines found := by
  induction good with
  | nil => exact ⟨[], rfl, .nil⟩
  | cons first _ ih =>
      obtain ⟨call, r, below, registered, gives⟩ := first tree
      obtain ⟨found, later, all_give⟩ := ih
      refine ⟨r :: found, ?_, .cons gives all_give⟩
      rw [List.flatMap_cons, callsBelow_append, below]
      exact registrations_cons registered later

theorem ids_closeWithOutput (g : PipelineGraph) (position : Position) :
    (g.closeWithOutput position).nodes.map (·.id) =
      g.nodes.map (·.id) ++ (if g.hasTerminalEdge then [outputNodeId] else []) := by
  rw [PipelineGraph.closeWithOutput]
  split
  · exact List.map_append
  · exact (List.append_nil _).symm

theorem edges_closeWithOutput (g : PipelineGraph) (position : Position) :
    (g.closeWithOutput position).edges = g.edges := by
  rw [PipelineGraph.closeWithOutput]
  split <;> rfl

/-- The graph of a file that holds a builder and nothing else. -/
theorem graphOf_builder (source : List Char) (keyword opening closing : Token)
    {lines : List BuilderLine} {statements : List Node}
    (good : List.Forall₂ BuilderLine.Statement lines statements) :
    graphOf { source, root := .spanning .file [builderNode keyword opening closing statements] } =
      .ok ((drawn lines).closeWithOutput (.onDiagonal (drawn lines).nodes.length)) := by
  let node := builderNode keyword opening closing statements
  let tree : SourceTree := { source, root := .spanning .file [node] }
  obtain ⟨function, functions, name, body⟩ : ∃ function, tree.functions = [function] ∧
      function.name = builderName ∧ function.node = node := ⟨_, rfl, rfl, rfl⟩
  have calls : tree.callsIn node = callsBelow tree (statements.flatMap Node.children) :=
    callsIn_builderNode tree keyword opening closing statements
  obtain ⟨found, registered, gives⟩ := registrations_statements tree good
  have folded := foldl_register_drawn functions name [] lines gives
  have builder : [function].find? (·.name = builderName) = some function := by simp [name]
  change graphOf tree = _
  rw [graphOf, functions, builder]
  change (registrations (tree.callsIn function.node)).bind _ = _
  rw [body, calls, registered]
  change Except.ok ((found.foldl (register tree) (drawn [])).closeWithOutput
    (.onDiagonal (found.foldl (register tree) (drawn [])).nodes.length)) = _
  rw [folded]
  rfl

theorem extract?_eq_drawn (indent : Indent) (first : BuilderLine) (rest : List BuilderLine) :
    extract? (builderSource indent (first :: rest)) =
      .ok ((drawn (first :: rest)).closeWithOutput
        (.onDiagonal (drawn (first :: rest)).nodes.length)) := by
  obtain ⟨ts, tokens, kinds⟩ := tokenize_builderSource indent first rest
  obtain ⟨keyword, opening, closing, statements, good, file⟩ := file_builder first rest kinds
  have parsed : SourceTree.parse? (builderSource indent (first :: rest)).toList = some
      { source := (builderSource indent (first :: rest)).toList
        root := .spanning .file [builderNode keyword opening closing statements] } := by
    simp [SourceTree.parse?, tokens, file]
  rw [extract?, parsed]
  exact graphOf_builder _ keyword opening closing good

/-- The graph of a builder has the nodes and the edges of its lines, in order, and the output node
behind them where an edge ends the pipeline. -/
theorem extract?_builderSource (indent : Indent) (first : BuilderLine)
    (rest : List BuilderLine) :
    let lines := first :: rest
    ∃ g, extract? (builderSource indent lines) = .ok g ∧
      g.nodes.map (·.id) = lines.filterMap (·.nodeId?) ++
        (if lines.any (·.isTerminal) then ["output"] else []) ∧
      g.edges.map (fun e => (e.source, e.target)) = lines.filterMap (·.route?) := by
  intro lines
  refine ⟨_, extract?_eq_drawn indent first rest, ?_, ?_⟩
  · rw [ids_closeWithOutput, ids_drawn, hasTerminalEdge_drawn]
    rfl
  · rw [edges_closeWithOutput, routes_drawn]

end AgentWorkbench.Extraction
