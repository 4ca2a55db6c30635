import AgentWorkbench.Extraction.Pipeline
import AgentWorkbench.Proofs.Number.Whole
import AgentWorkbench.Proofs.Python.Walk
import Mathlib.Data.List.Forall2

/-!
The shape of a recovered graph. Each call of the builder that registers a node or an edge gives one,
in the order of the calls; ids, positions and the output node follow from how many there are. A
source that does not parse, or a registering call that lacks an argument, gives an empty graph that
says so.
-/
namespace AgentWorkbench.Extraction

open Python

/-- The calls inside the first function with the builder's name, each before those inside it and
from left to right. -/
def builderCalls (tree : SourceTree) : List Call :=
  match tree.functions.find? (·.name = "create_agent") with
  | some builder => builder.node.preorder.filterMap fun node =>
      if node.kind = .call then (tree.lower node).call? else none
  | none => []

/-- The calls of a method, whatever the object. -/
def callsOf (method : String) (calls : List Call) : List Call :=
  calls.filter (·.method? = some method)

/-- A registering call with fewer than two positional arguments. -/
def Lacks (call : Call) : Prop :=
  (call.method? = some "add_node" ∨ call.method? = some "add_edge") ∧ call.args.length < 2

instance (call : Call) : Decidable (Lacks call) := inferInstanceAs (Decidable (_ ∧ _))

/-- The `k`-th node is labelled with its id, and drawn `k` steps down the diagonal. -/
structure DrawnAt (k : Nat) (node : GraphNode) : Prop where
  label : node.label = node.id
  position : node.position = .onDiagonal k
  exact : 250 * k < 2 ^ 53 →
    node.position.x.IsWhole (250 * k) ∧ node.position.y.IsWhole (100 * k)

/-- The `k`-th node and the call that registers it. -/
structure NodeOf (k : Nat) (call : Call) (node : GraphNode) : Prop where
  id : ∃ first second more, call.args = first :: second :: more ∧ node.id = first.identifier
  drawn : DrawnAt k node

/-- The `k`-th edge and the call that registers it. -/
structure EdgeOf (k : Nat) (call : Call) (edge : GraphEdge) : Prop where
  id : edge.id = "edge-" ++ Nat.repr k
  ends : ∃ first second more, call.args = first :: second :: more ∧
    edge.source = first.identifier ∧ edge.target =
      if second.identifier ∈ ["END", "__end__"] then "output" else second.identifier
  redirected : edge.target ≠ "END" ∧ edge.target ≠ "__end__"
  metadata : edge.metadata = []

/-- Things made of calls one by one, the `k`-th of the `k`-th call. -/
def OneByOne {α : Type} (made : Nat → Call → α → Prop) (calls : List Call) (things : List α) :
    Prop :=
  List.Forall₂ (fun place thing => made place.2 place.1 thing) calls.zipIdx things

/-- The `k`-th node tells what the tree says of the handler that its call registers. -/
def Registers (tree : SourceTree) (k : Nat) (call : Call) (node : GraphNode) : Prop :=
  ∃ first second more, call.args = first :: second :: more ∧
    node = nodeOf tree k ⟨.node, first, second⟩

/-- The graph of some calls, before the output node is added. -/
structure Sketch (tree : SourceTree) (calls : List Call) (g : PipelineGraph) : Prop where
  error : g.error = none
  nodes : OneByOne (Registers tree) (callsOf "add_node" calls) g.nodes
  edges : OneByOne EdgeOf (callsOf "add_edge" calls) g.edges

/-- The graph of some calls: the output node stands last if an edge leads there. -/
structure Shape (calls : List Call) (g : PipelineGraph) : Prop where
  error : g.error = none
  nodes : ∃ own, OneByOne NodeOf (callsOf "add_node" calls) own ∧
    g.nodes = own ++ if ∃ edge ∈ g.edges, edge.target = "output" then
      [PipelineGraph.outputNode (.onDiagonal own.length)] else []
  drawn : ∀ k node, g.nodes[k]? = some node → DrawnAt k node
  edges : OneByOne EdgeOf (callsOf "add_edge" calls) g.edges

theorem drawnAt (k : Nat) {node : GraphNode} (label : node.label = node.id)
    (position : node.position = .onDiagonal k) : DrawnAt k node where
  label := label
  position := position
  exact small := by
    rw [position]
    exact Position.onDiagonal_whole small

/-! What a call registers. -/

theorem ofMethod?_eq_some_iff {name : String} {r : Registration} :
    Registration.ofMethod? name = some r ↔ name = r.method := by
  constructor
  · intro h
    rw [Registration.ofMethod?] at h
    split_ifs at h with node edge
    · obtain rfl := Option.some.inj h
      exact node
    · obtain rfl := Option.some.inj h
      exact edge
  · rintro rfl
    cases r <;> rfl

/-- Whether a call registers something, and what. -/
theorem registered?_cases (call : Call) :
    ((∀ r : Registration, call.method? ≠ some r.method) ∧ registered? call = .ok none) ∨
      ∃ r : Registration, call.method? = some r.method ∧
        ((∃ first second more, call.args = first :: second :: more ∧
            registered? call = .ok (some ⟨r, first, second⟩)) ∨
          call.args.length < 2 ∧
            registered? call = .error (.missingArgument r call.line call.args.length)) := by
  cases found : call.method?.bind Registration.ofMethod? with
  | none =>
      refine .inl ⟨fun r method => ?_, by rw [registered?, found]⟩
      rw [method, Option.bind_some, ofMethod?_eq_some_iff.mpr rfl] at found
      contradiction
  | some r =>
      obtain ⟨name, method, of⟩ := Option.bind_eq_some_iff.mp found
      obtain rfl := ofMethod?_eq_some_iff.mp of
      refine .inr ⟨r, method, ?_⟩
      rw [registered?, found]
      match call.args with
      | first :: second :: more => exact .inl ⟨first, second, more, rfl, rfl⟩
      | [] => exact .inr ⟨by decide, rfl⟩
      | [_] => exact .inr ⟨Nat.one_lt_two, rfl⟩

theorem lacks_iff {call : Call} {r : Registration} (method : call.method? = some r.method) :
    Lacks call ↔ call.args.length < 2 := by
  have named : call.method? = some "add_node" ∨ call.method? = some "add_edge" := by
    cases r
    · exact .inl method
    · exact .inr method
  exact ⟨fun lacks => lacks.2, fun short => ⟨named, short⟩⟩

theorem registrations_cons_eq (call : Call) (calls : List Call) : registrations (call :: calls) =
    (registered? call).bind fun found =>
      (registrations calls).map fun more => found.toList ++ more := by
  simp only [registrations, List.mapM_cons]
  cases registered? call with
  | error e => rfl
  | ok found =>
      cases calls.mapM registered? with
      | error e => rfl
      | ok more => cases found <;> rfl

theorem OneByOne.length_eq {α : Type} {made : Nat → Call → α → Prop} {calls : List Call}
    {things : List α} (h : OneByOne made calls things) : things.length = calls.length := by
  rw [← List.Forall₂.length_eq h, List.length_zipIdx]

theorem OneByOne.append {α : Type} {made : Nat → Call → α → Prop} {calls : List Call}
    {things : List α} (h : OneByOne made calls things) {call : Call} {thing : α}
    (last : made things.length call thing) :
    OneByOne made (calls ++ [call]) (things ++ [thing]) := by
  rw [OneByOne, List.zipIdx_append]
  refine List.rel_append h (.cons ?_ .nil)
  rwa [Nat.zero_add, ← h.length_eq]

theorem OneByOne.made_at {α : Type} {made : Nat → Call → α → Prop} {calls : List Call}
    {things : List α} (h : OneByOne made calls things) {k : Nat} (among : k < calls.length)
    (inside : k < things.length) : made k calls[k] things[k] := by
  have at_k := (List.forall₂_iff_get.mp h).2 k (by rwa [List.length_zipIdx]) inside
  simpa only [List.get_eq_getElem, List.getElem_zipIdx, Nat.zero_add] using at_k

theorem OneByOne.exists_made {α : Type} {made : Nat → Call → α → Prop} {calls : List Call}
    {things : List α} (h : OneByOne made calls things) {k : Nat} {thing : α}
    (place : things[k]? = some thing) : ∃ call, made k call thing := by
  obtain ⟨inside, rfl⟩ := List.getElem?_eq_some_iff.mp place
  exact ⟨_, h.made_at (h.length_eq ▸ inside) inside⟩

theorem OneByOne.exists_thing {α : Type} {made : Nat → Call → α → Prop} {calls : List Call}
    {things : List α} (h : OneByOne made calls things) {k : Nat} {call : Call}
    (place : calls[k]? = some call) : ∃ thing, things[k]? = some thing ∧ made k call thing := by
  obtain ⟨among, rfl⟩ := List.getElem?_eq_some_iff.mp place
  have inside : k < things.length := h.length_eq ▸ among
  exact ⟨_, List.getElem?_eq_getElem inside, h.made_at among inside⟩

theorem OneByOne.imp {α : Type} {made made' : Nat → Call → α → Prop} {calls : List Call}
    {things : List α} (h : OneByOne made calls things)
    (same : ∀ k call thing, made k call thing → made' k call thing) :
    OneByOne made' calls things :=
  List.Forall₂.imp (fun _ _ => same _ _ _) h

theorem callsOf_append {method : String} {call : Call} (h : call.method? = some method)
    (calls : List Call) : callsOf method (calls ++ [call]) = callsOf method calls ++ [call] := by
  simp [callsOf, h]

theorem callsOf_append_other {method : String} {call : Call} (h : call.method? ≠ some method)
    (calls : List Call) : callsOf method (calls ++ [call]) = callsOf method calls := by
  simp [callsOf, h]

section Registering

variable {tree : SourceTree} {calls : List Call} {g : PipelineGraph} {call : Call}

theorem NodeOf.of_registers {k : Nat} {node : GraphNode} (h : Registers tree k call node) :
    NodeOf k call node := by
  obtain ⟨first, second, more, args, rfl⟩ := h
  have parts : (nodeOf tree k ⟨.node, first, second⟩).id = first.identifier ∧
      (nodeOf tree k ⟨.node, first, second⟩).label = first.identifier ∧
      (nodeOf tree k ⟨.node, first, second⟩).position = .onDiagonal k := by
    rw [nodeOf]
    dsimp only
    cases handler? tree.functions second <;> exact ⟨rfl, rfl, rfl⟩
  obtain ⟨id, label, position⟩ := parts
  exact ⟨⟨first, second, more, args, id⟩, drawnAt k (label.trans id.symm) position⟩

theorem Sketch.other (sketch : Sketch tree calls g)
    (other : ∀ r : Registration, call.method? ≠ some r.method) :
    Sketch tree (calls ++ [call]) g where
  error := sketch.error
  nodes := (callsOf_append_other (other .node) calls).symm ▸ sketch.nodes
  edges := (callsOf_append_other (other .edge) calls).symm ▸ sketch.edges

variable {first second : Expr} {more : List Expr} (args : call.args = first :: second :: more)
include args

theorem edgeOf_pushed (k : Nat) : EdgeOf k call
    { id := PipelineGraph.edgeId k, source := first.identifier, target := edgeTarget second } := by
  have target : edgeTarget second =
      if second.identifier ∈ ["END", "__end__"] then "output" else second.identifier := by
    simp only [edgeTarget, terminalTargets, List.contains_iff_mem, outputNodeId]
  refine ⟨rfl, ⟨first, second, more, args, rfl, target⟩, ?_, rfl⟩
  change edgeTarget second ≠ "END" ∧ edgeTarget second ≠ "__end__"
  rw [target]
  split_ifs with terminal
  · decide
  · simpa using terminal

/-- A registration adds the node or the edge of its call. -/
theorem Sketch.register (sketch : Sketch tree calls g) {r : Registration}
    (method : call.method? = some r.method) :
    Sketch tree (calls ++ [call]) (Extraction.register tree g ⟨r, first, second⟩) := by
  cases r with
  | node =>
      have named : call.method? = some "add_node" := method
      have apart : call.method? ≠ some "add_edge" := by
        rw [named]
        decide
      refine ⟨sketch.error, ?_, ?_⟩
      · rw [callsOf_append named]
        exact sketch.nodes.append ⟨first, second, more, args, rfl⟩
      · rw [callsOf_append_other apart]
        exact sketch.edges
  | edge =>
      have named : call.method? = some "add_edge" := method
      have apart : call.method? ≠ some "add_node" := by
        rw [named]
        decide
      refine ⟨sketch.error, ?_, ?_⟩
      · rw [callsOf_append_other apart]
        exact sketch.nodes
      · rw [callsOf_append named]
        exact sketch.edges.append (edgeOf_pushed args _)

end Registering

/-- The calls that follow are drawn one after the other, if none of them lacks an argument. -/
theorem Sketch.foldl_register {tree : SourceTree} {before : List Call} {g : PipelineGraph}
    (sketch : Sketch tree before g) {calls : List Call} (complete : ∀ call ∈ calls, ¬ Lacks call) :
    ∃ found, registrations calls = .ok found ∧
      Sketch tree (before ++ calls) (found.foldl (Extraction.register tree) g) := by
  induction calls generalizing before g with
  | nil => exact ⟨[], rfl, by rwa [List.append_nil]⟩
  | cons call calls ih =>
      obtain ⟨whole, complete⟩ := List.forall_mem_cons.mp complete
      have step : ∃ found, registered? call = .ok found ∧
          Sketch tree (before ++ [call]) (found.toList.foldl (Extraction.register tree) g) := by
        obtain ⟨other, registered⟩ |
            ⟨r, method, ⟨first, second, more, args, registered⟩ | ⟨short, -⟩⟩ :=
          registered?_cases call
        · exact ⟨none, registered, sketch.other other⟩
        · exact ⟨some _, registered, sketch.register args method⟩
        · exact absurd ((lacks_iff method).mpr short) whole
      obtain ⟨first, registered, sketched⟩ := step
      obtain ⟨found, later, drawn⟩ := ih sketched complete
      refine ⟨first.toList ++ found, ?_, ?_⟩
      · rw [registrations_cons_eq, registered, later]
        rfl
      · rwa [List.foldl_append, ← List.singleton_append, ← List.append_assoc]

/-- The output node closes a sketch. -/
theorem Sketch.closed {tree : SourceTree} {calls : List Call} {g : PipelineGraph}
    (sketch : Sketch tree calls g) :
    Shape calls (g.closeWithOutput (.onDiagonal g.nodes.length)) := by
  have nodes : OneByOne NodeOf (callsOf "add_node" calls) g.nodes :=
    sketch.nodes.imp fun _ _ _ => NodeOf.of_registers
  have own : ∀ k node, g.nodes[k]? = some node → DrawnAt k node := fun k node place => by
    obtain ⟨call, made⟩ := nodes.exists_made place
    exact made.drawn
  have terminal : g.hasTerminalEdge = true ↔ ∃ edge ∈ g.edges, edge.target = "output" := by
    rw [PipelineGraph.hasTerminalEdge, List.any_eq_true]
    exact exists_congr fun edge => and_congr_right fun _ => decide_eq_true_iff
  rw [PipelineGraph.closeWithOutput]
  split_ifs with ends
  · refine ⟨sketch.error, ⟨g.nodes, nodes, ?_⟩, ?_, sketch.edges⟩
    · exact congrArg (g.nodes ++ ·) (if_pos (terminal.mp ends)).symm
    · intro k node place
      obtain before | ⟨after, last⟩ : k < g.nodes.length ∨ g.nodes.length ≤ k ∧
          [PipelineGraph.outputNode (.onDiagonal g.nodes.length)][k - g.nodes.length]? =
            some node := by
        obtain before | after := Nat.lt_or_ge k g.nodes.length
        · exact .inl before
        · exact .inr ⟨after, List.getElem?_append_right after ▸ place⟩
      · exact own k node ((List.getElem?_append_left before).symm.trans place)
      · obtain ⟨here, rfl⟩ := List.getElem?_eq_some_iff.mp last
        have at_end : k = g.nodes.length := by
          rw [List.length_singleton] at here
          omega
        subst at_end
        simpa using drawnAt g.nodes.length rfl rfl
  · refine ⟨sketch.error, ⟨g.nodes, nodes, ?_⟩, own, sketch.edges⟩
    rw [if_neg (mt terminal.mpr ends), List.append_nil]

theorem sketch_nil (tree : SourceTree) : Sketch tree [] {} where
  error := rfl
  nodes := .nil
  edges := .nil

/-- What a tree gives follows from the calls of its builder. -/
theorem graphOf_eq (tree : SourceTree) : graphOf tree =
    (registrations (builderCalls tree)).map fun found =>
      let g : PipelineGraph := found.foldl (register tree) {}
      g.closeWithOutput (.onDiagonal g.nodes.length) := by
  have calls (node : Node) : tree.callsIn node = node.preorder.filterMap fun visited =>
      if visited.kind = .call then (tree.lower visited).call? else none := by
    rw [SourceTree.callsIn, Node.walk_eq_preorder]
  rw [graphOf, builderCalls, builderName]
  cases tree.functions.find? (·.name = "create_agent") with
  | none => rfl
  | some builder =>
      dsimp only
      rw [← calls]
      cases registrations (tree.callsIn builder.node) <;> rfl

/-- Each registration of a node gives the node of its call, if no call lacks an argument. -/
theorem graphOf_registers {tree : SourceTree} (complete : ∀ call ∈ builderCalls tree, ¬ Lacks call) :
    ∃ g, graphOf tree = .ok g ∧ ∀ k call, (callsOf "add_node" (builderCalls tree))[k]? = some call →
      ∃ node, g.nodes[k]? = some node ∧ Registers tree k call node := by
  obtain ⟨found, registered, sketch⟩ := (sketch_nil tree).foldl_register complete
  let g : PipelineGraph := found.foldl (register tree) {}
  refine ⟨g.closeWithOutput (.onDiagonal g.nodes.length), ?_, fun k call place => ?_⟩
  · rw [graphOf_eq, registered]
    rfl
  · obtain ⟨node, here, made⟩ := sketch.nodes.exists_thing place
    refine ⟨node, ?_, made⟩
    obtain ⟨inside, -⟩ := List.getElem?_eq_some_iff.mp here
    rw [PipelineGraph.closeWithOutput]
    split_ifs with ends
    · exact (List.getElem?_append_left inside).trans here
    · exact here

end AgentWorkbench.Extraction
