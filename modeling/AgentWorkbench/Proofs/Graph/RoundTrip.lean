import AgentWorkbench.Proofs.Frame.Wrapping
import AgentWorkbench.Proofs.Json.Lines
import AgentWorkbench.Proofs.Json.Reading
import AgentWorkbench.Session.Output

/-!
Graphs written and read back. Each type of the graph is read from the layouts of its JSON value;
the compact and the pretty text are such layouts, so either is read as the graph, also out of a
frame that stands behind other output.
-/
namespace AgentWorkbench

open Json JsonReader

namespace Position

theorem reads (p : Position) (depth : Nat) : Reads (reader (depth + 1)) p.toJson p := by
  have x := reads_binary64 (.float p.x)
  have y := reads_binary64 (.float p.y)
  exact reads_record
    (.member rfl rfl (reads_field _ rfl x) <| .member rfl rfl (reads_field _ rfl y) <| .nil _) rfl

end Position

namespace GraphNode

theorem reads (n : GraphNode) (depth : Nat) : Reads (reader (depth + 2)) n.toJson n := by
  have arguments : Reads (list (fun _ => text) (depth + 1))
      (.arr (n.functionArguments.map .str)) n.functionArguments :=
    reads_list fun s _ => reads_text s
  exact reads_record
    (.member rfl rfl (reads_field _ rfl (reads_text n.id)) <|
      .member rfl rfl (reads_field _ rfl (reads_text n.label)) <|
      .member rfl rfl (reads_field _ rfl (reads_text n.docstring)) <|
      .member rfl rfl (reads_field _ rfl arguments) <|
      .member rfl rfl (reads_field _ rfl (reads_text n.prompt)) <|
      .member rfl rfl (reads_field _ rfl (reads_text n.model)) <|
      .member rfl rfl (reads_field _ rfl (n.position.reads depth)) <| .nil _) rfl

end GraphNode

namespace GraphEdge

theorem reads (e : GraphEdge) {depth : Nat} (canonical : (Json.obj e.metadata).Canonical)
    (shallow : (Json.obj e.metadata).nesting ≤ depth) :
    Reads (reader (depth + 1)) e.toJson e :=
  reads_record
    (.member rfl rfl (reads_field _ rfl (reads_text e.id)) <|
      .member rfl rfl (reads_field _ rfl (reads_text e.source)) <|
      .member rfl rfl (reads_field _ rfl (reads_text e.target)) <|
      .member rfl rfl (reads_field _ rfl (reads_freeMembers canonical shallow)) <| .nil _) rfl

end GraphEdge

namespace PipelineGraph

/-- The metadata of an edge stands three levels deep in the graph's value. -/
theorem nesting_metadata {g : PipelineGraph} {e : GraphEdge} (h : e ∈ g.edges) :
    (Json.obj e.metadata).nesting + 3 ≤ g.toJson.nesting := by
  have inEdges : e.toJson.nesting ≤ nestingOfItems (g.edges.map GraphEdge.toJson) :=
    nesting_le_items (List.mem_map_of_mem h)
  have inGraph : (Json.arr (g.edges.map GraphEdge.toJson)).nesting + 1 ≤ g.toJson.nesting :=
    Nat.succ_le_succ (nesting_le_members
      (m := ("edges", .arr (g.edges.map GraphEdge.toJson))) (by simp))
  simp only [GraphEdge.toJson, nesting, nestingOfMembers] at inEdges inGraph ⊢
  omega

theorem reads {g : PipelineGraph} (canonical : ∀ e ∈ g.edges, (Json.obj e.metadata).Canonical)
    (shallow : g.toJson.nesting ≤ depthLimit) : Reads (reader depthLimit) g.toJson g := by
  have nodes : Reads (list GraphNode.reader 126) (.arr (g.nodes.map GraphNode.toJson)) g.nodes :=
    reads_list fun n _ => n.reads 123
  have edges : Reads (list GraphEdge.reader 126) (.arr (g.edges.map GraphEdge.toJson)) g.edges := by
    refine reads_list fun e he => e.reads (canonical e he) ?_
    have := nesting_metadata he
    have : depthLimit = 127 := rfl
    omega
  obtain ⟨_, _, error⟩ := g
  cases error with
  | none =>
      exact reads_record
        (.member rfl rfl (reads_field _ rfl nodes) <|
          .member rfl rfl (reads_field _ rfl edges) <| .nil _) rfl
  | some message =>
      exact reads_record
        (.member rfl rfl (reads_field _ rfl nodes) <|
          .member rfl rfl (reads_field _ rfl edges) <|
          .member rfl rfl (reads_field _ rfl (reads_optional_text message)) <| .nil _) rfl

theorem parse_of_layout {g : PipelineGraph}
    (canonical : ∀ e ∈ g.edges, (Json.obj e.metadata).Canonical)
    (shallow : g.toJson.nesting ≤ depthLimit) {text : String}
    (h : Layout (.value g.toJson) text.toList) : PipelineGraph.parse text = .ok g :=
  run_of_reads (reads canonical shallow) h

/-- The text of an object begins and ends with its braces, so only the break is trimmed off. -/
theorem trim_layout {ms : List (String × Json)} {cs : List Char}
    (h : Layout (.value (.obj ms)) cs) : Text.trim (cs ++ ['\n']) = cs := by
  cases h with
  | @obj _ cs h =>
      have last : ('\x7b' :: cs).getLast? = some '\x7d' := by
        rw [List.getLast?_cons, h.getLast?_members]
        rfl
      have front : Text.trimStart ('\x7b' :: cs ++ ['\n']) = '\x7b' :: cs ++ ['\n'] := rfl
      have blank : Text.isBlank '\n' = true := rfl
      rw [Text.trim, front, Text.trimEnd]
      refine Text.dropEndWhile_append (by simp [blank]) ?_
      rw [last]
      rintro c ⟨⟩
      rfl

/-- The text of a graph is read as the graph, and so is a frame around it. -/
theorem extractFrame_of_layout {g : PipelineGraph}
    (canonical : ∀ e ∈ g.edges, (Json.obj e.metadata).Canonical)
    (shallow : g.toJson.nesting ≤ depthLimit) {text : String}
    (h : Layout (.value g.toJson) text.toList) {done : List Char} (whole : Text.WholeLines done)
    (undecoded : ∀ payload ∈ Frame.payloads .graph done,
      Frame.decodePayload OutputAccumulator.decodeGraph payload = none)
    (closed : Frame.AllClosed .graph done) (later : List Char) :
    extractFrame OutputAccumulator.decodeGraph .graph
      (done ++ (FrameKind.graph.wrap text).toList ++ later) = some g := by
  have nothing : extractFrame OutputAccumulator.decodeGraph .graph done = none := by
    rw [Frame.extractFrame_eq_findSome?_payloads]
    exact List.findSome?_eq_none_iff.mpr undecoded
  have ending : CalmTail ['\n'] := by simp [CalmTail]
  have inner := (h.calm ending).no_end .graph
  have decoded : Frame.decodePayload OutputAccumulator.decodeGraph (text.toList ++ ['\n']) =
      some g := by
    rw [Frame.decodePayload, trim_layout h, String.ofList_toList, OutputAccumulator.decodeGraph,
      parse_of_layout canonical shallow h]
    rfl
  exact Frame.extractFrame_wrap whole nothing closed inner decoded later

/-- A graph comes back from its compact and from its pretty text, and from a frame around either
that stands behind whole lines without an open or decodable graph frame, whatever follows. -/
theorem written_reads_back (g : PipelineGraph) (rereads : ∀ n ∈ g.toJson.numbers, n.Rereads)
    (canonical : ∀ e ∈ g.edges, (Json.obj e.metadata).Canonical)
    (shallow : g.toJson.nesting ≤ depthLimit) :
    ∀ text ∈ [g.compact, g.pretty],
      PipelineGraph.parse text = .ok g ∧
        ∀ done later : List Char, Text.WholeLines done →
          (∀ payload ∈ Frame.payloads .graph done,
            Frame.decodePayload OutputAccumulator.decodeGraph payload = none) →
          Frame.AllClosed .graph done →
          extractFrame OutputAccumulator.decodeGraph .graph
            (done ++ (FrameKind.graph.wrap text).toList ++ later) = some g := by
  have layouts : ∀ text ∈ [g.compact, g.pretty], Layout (.value g.toJson) text.toList := by
    rw [List.forall_mem_cons, List.forall_mem_singleton, compact, pretty, Json.compact,
      Json.pretty, String.toList_ofList, String.toList_ofList]
    exact ⟨layout_compactChars g.toJson rereads, layout_prettyChars g.toJson rereads 0⟩
  intro text ht
  have h := layouts text ht
  exact ⟨parse_of_layout canonical shallow h, fun done later whole undecoded closed =>
    extractFrame_of_layout canonical shallow h whole undecoded closed later⟩

/-- A graph whose strings have sentinels, breaks and control characters in them. -/
def tricky : PipelineGraph where
  nodes := [{
    id := "---GRAPH_STRUCTURE_END---"
    label := "\"\\/\n---GRAPH_STRUCTURE_END---\n"
    docstring := "\x00\x08\x0c\x1f\x7f"
    functionArguments := ["", "é\u2028😀"]
    position := .onDiagonal 3 }]
  edges := [{
    id := "edge-0"
    source := "a\tb\r"
    target := outputNodeId
    metadata := [("", .arr [.num (.int (-7)), .num (.float ⟨true, 0x4004000000000000⟩)]),
      ("k", .obj [("x", .null), ("y", .bool true)])] }]
  error := some "---GRAPH_STRUCTURE_BEGIN---"

def outputBefore : List Char :=
  "log\n---GRAPH_STRUCTURE_BEGIN---\nno graph\n---GRAPH_STRUCTURE_END---\n".toList

theorem tricky_reads_back :
    PipelineGraph.parse tricky.compact = .ok tricky ∧
      PipelineGraph.parse tricky.pretty = .ok tricky ∧
      extractFrame OutputAccumulator.decodeGraph .graph
        (outputBefore ++ (FrameKind.graph.wrap tricky.pretty).toList ++
          "---GRAPH_STRUCTURE_BEGIN---\n".toList) = some tricky := by
  have rereads : ∀ n ∈ tricky.toJson.numbers, n.Rereads := by
    have all : tricky.toJson.numbers = [.float (Position.onDiagonal 3).x,
      .float (Position.onDiagonal 3).y, .int (-7), .float ⟨true, 0x4004000000000000⟩] := rfl
    rw [all]
    simp only [List.forall_mem_cons]
    exact ⟨rfl, rfl, rfl, rfl, by simp⟩
  have canonical : ∀ e ∈ tricky.edges, (Json.obj e.metadata).Canonical := by
    have outer : "" < "k" := by decide
    have inner : "x" < "y" := by decide
    simp only [tricky, Canonical, CanonicalMembers, CanonicalItems,
      List.pairwise_cons, List.mem_singleton, forall_eq, List.Pairwise.nil, List.not_mem_nil]
    exact ⟨⟨outer, by simp⟩, by simp, ⟨⟨inner, by simp⟩, by simp⟩, by simp⟩
  have whole : Text.WholeLines outputBefore := by
    have last : outputBefore.getLast? = some '\n' := by decide +kernel
    rw [Text.WholeLines, last]
    simp
  have undecoded : ∀ payload ∈ Frame.payloads .graph outputBefore,
      Frame.decodePayload OutputAccumulator.decodeGraph payload = none := by
    decide +kernel
  have closed : Frame.AllClosed .graph outputBefore := by
    unfold Frame.AllClosed
    decide +kernel
  have compact := written_reads_back tricky rereads canonical (by decide) tricky.compact (by simp)
  have pretty := written_reads_back tricky rereads canonical (by decide) tricky.pretty (by simp)
  exact ⟨compact.1, pretty.1, pretty.2 outputBefore _ whole undecoded closed⟩

end PipelineGraph

end AgentWorkbench
