import AgentWorkbench.Proofs.Extraction.Sender
import AgentWorkbench.Proofs.Extraction.Shape
import AgentWorkbench.Proofs.Python.BareLines
import AgentWorkbench.Proofs.Python.Signatures

/-!
The prompt of a node. A handler that sends a message stands among the statements of a source; a
node that the builder registers for it has what the message shows as its prompt.
-/
namespace AgentWorkbench.Extraction

open Python Python.Grammar Python.Lexer Text

/-! Lines without tokens. -/

/-- A line without tokens: blanks, and a comment if there is one. -/
structure BlankLine where
  blanks : List Char
  comment : Option (List Char)
  blank : ∀ c ∈ blanks, c = ' ' ∨ c = '\t'
  legal : ∀ text ∈ comment, ∀ c ∈ text, c ≠ '\n' ∧ c.toNat ≠ 0

namespace BlankLine

def remark (line : BlankLine) : List Char :=
  match line.comment with
  | some text => '#' :: text
  | none => []

def text (line : BlankLine) : List Char := line.blanks ++ line.remark ++ ['\n']

/-- What stands in the line. -/
def bare (line : BlankLine) : BareLine where
  blanks := line.blanks
  comment := line.comment
  blank c mem := by obtain rfl | rfl := line.blank c mem <;> decide
  legal := line.legal

theorem text_eq (line : BlankLine) : line.text = line.bare.text ++ ['\n'] := rfl

/-- At the margin the line leaves everything as it is. -/
theorem passes (line : BlankLine) {s : LexState} (margin : AtMargin s) (rest : List Char) :
    Passes s (line.text ++ rest) [] s rest := by
  rw [text_eq, List.append_assoc]
  exact margin.passes_bareLine line.bare rest

end BlankLine

/-- Lines without tokens may stand below any text that ends at the margin. -/
theorem stands_blankLines {front : List Char} {ts : List Token} {s : LexState}
    (h : Stands front ts s) (lines : List BlankLine) :
    Stands (front ++ lines.flatMap BlankLine.text) ts s := by
  induction lines generalizing front with
  | nil => rwa [List.flatMap_nil, List.append_nil]
  | cons line lines ih =>
      have passed := line.passes h.margin []
      rw [List.append_nil] at passed
      obtain ⟨us, reads, kinds⟩ := passed.reads (0 + front.length)
      obtain rfl := List.map_eq_nil_iff.mp kinds
      have whole := h.reads.append .start (.inl h.lines) reads
      rw [List.append_nil] at whole
      have ends : WholeLines (front ++ line.text) := by
        rw [BlankLine.text, ← List.append_assoc]
        exact .append_break _
      rw [List.flatMap_cons, ← List.append_assoc]
      exact ih ⟨whole, h.margin, ends⟩

/-! The handler of a name. -/

/-- Statements define functions of the same names at another place. -/
theorem name_functionOf?_moved (tree tree' : SourceTree) (nodes : List Node) (d : Nat) :
    ((nodes.map (Node.moved d)).filterMap tree'.functionOf?).map Function.name =
      (nodes.filterMap tree.functionOf?).map Function.name := by
  rw [List.map_filterMap, List.map_filterMap, List.filterMap_map]
  congr 1
  funext node
  simp only [SourceTree.functionOf?, Function.comp_apply, Node.functionDefinition?_moved,
    Option.map_map]
  cases node.functionDefinition? <;> rfl

/-- The last function with a name is the one that the name stands for. -/
theorem handler?_eq_some {tree : SourceTree} {above below : List Node} {node : Node} {f : Function}
    (children : tree.root.children = above ++ node :: below)
    (found : tree.functionOf? node = some f)
    (last : f.name ∉ (below.filterMap tree.functionOf?).map Function.name) :
    handler? tree.functions (.name f.name) = some f := by
  have others : (below.filterMap tree.functionOf?).reverse.find? (·.name = f.name) = none := by
    rw [List.find?_eq_none]
    intro g mem same
    exact last (List.mem_map.mpr ⟨g, List.mem_reverse.mp mem, of_decide_eq_true same⟩)
  change tree.functions.reverse.find? (·.name = f.name) = some f
  rw [SourceTree.functions, children, List.filterMap_append, List.filterMap_cons_some found,
    List.reverse_append, List.reverse_cons, List.append_assoc, List.find?_append, others,
    Option.none_or, List.singleton_append, List.find?_cons_of_pos (by simp)]

/-! The handler among other statements. -/

theorem HandlerNode.functionOf? {name : String} {above below : List Node}
    {statement handler : Node} (h : HandlerNode name above statement below handler)
    (tree : SourceTree) : ∃ f, tree.functionOf? handler = some f ∧ f.name = name ∧
      f.node = handler := by
  cases h
  exact ⟨_, rfl, rfl, rfl⟩

/-- A node is a handler that sends a message. -/
def IsSender (tree : SourceTree) (sender : Sender) (handler : Node) : Prop :=
  ∃ message pieces above statement below, Silent above ∧
    HandlerNode sender.name.name above statement below handler ∧
    LineNode tree (sender.message.parts.flatMap Part.shown) sender.usage message pieces statement

/-- A handler that sends a message, in a tree with these statements above and below. -/
structure Sends (tree : SourceTree) (sender : Sender) (above : List Node) (handler : Node)
    (below : List Node) : Prop where
  children : tree.root.children = above ++ handler :: below
  isSender : IsSender tree sender handler

/-- The text behind a handler: nothing, or one that starts with a token. -/
def Follows (after : List Char) : Prop := after = [] ∨ StartsToken after

theorem joins_of_follows {front after : List Char} {ts : List Token} {s : LexState}
    (h : Stands front ts s) (follows : Follows after) :
    Joins front after (ts ++ ends s front.length front.length) := by
  obtain rfl | start := follows
  · refine ⟨h.tokenize, ?_⟩
    rw [List.append_nil, h.tokenize]
    exact congrArg some (List.append_nil _).symm
  · exact h.joins start

theorem parse?_sender (sender : Sender) (blank : List BlankLine) {after : List Char}
    {rest : SourceTree} (below : Follows after) (parsed : SourceTree.parse? after = some rest) :
    let front := sender.text ++ blank.flatMap BlankLine.text
    ∃ tree handler, SourceTree.parse? (front ++ after) = some tree ∧
      Sends tree sender [] handler (rest.root.children.map (Node.moved front.length)) := by
  intro front
  obtain ⟨own, last, stands, kinds⟩ := stands_sender sender
  let ts := own ++ ends (lineStart sender.indent.width last) front.length front.length
  have joins : Joins front after ts := joins_of_follows (stands_blankLines stands blank) below
  have all_kinds : ts.map (·.kind) = sender.kinds ++ [.dedent] := by
    rw [List.map_append, kinds]
    rfl
  obtain ⟨message, pieces, upper, statement, lower, handler, silent, node, line, file⟩ :=
    file_sender sender all_kinds
  have alone : SourceTree.parse? front = some ⟨front, .spanning .file [handler]⟩ :=
    parse?_eq_some.mpr ⟨ts, joins.alone, file, rfl⟩
  obtain ⟨tree, whole, children⟩ := parse?_append joins alone parsed
  refine ⟨tree, handler, whole, children, message, pieces, upper, statement, lower, silent, node,
    line tree ?_⟩
  obtain ⟨us, tokens, -⟩ := parse?_eq_some.mp parsed
  obtain ⟨_, _, _, source⟩ := parse?_eq_some.mp whole
  have tokens' : tokenize (front ++ after) = some (ts ++ us.map (Token.moved front.length)) := by
    rw [joins.joined, tokens]
    rfl
  rw [source]
  exact fun t mem => covers_tokenize tokens' t (List.mem_append_left _ mem)

theorem Sends.moved {tree tree' : SourceTree} {sender : Sender} {above below others : List Node}
    {handler : Node} {d : Nat} (h : Sends tree sender above handler below)
    (children : tree'.root.children = others ++ tree.root.children.map (Node.moved d))
    (same : ∀ node, tree'.text (node.moved d) = tree.text node) :
    Sends tree' sender (others ++ above.map (Node.moved d)) (handler.moved d)
      (below.map (Node.moved d)) where
  children := by rw [children, h.children, List.map_append, List.map_cons, List.append_assoc]
  isSender := by
    obtain ⟨message, pieces, upper, statement, lower, silent, node, line⟩ := h.isSender
    exact ⟨_, _, _, _, _, silent.moved d, node.moved d, line.moved same⟩

/-- The name of the handler stands for it, and its prompt is what its message shows. -/
theorem Sends.prompt {tree : SourceTree} {sender : Sender} {above below : List Node}
    {handler : Node} (h : Sends tree sender above handler below)
    (last : sender.name.name ∉ (below.filterMap tree.functionOf?).map Function.name) :
    ∃ f, handler? tree.functions (.name sender.name.name) = some f ∧
      Extraction.prompt tree f.node = sender.prompt := by
  obtain ⟨message, pieces, upper, statement, lower, silent, node, line⟩ := h.isSender
  obtain ⟨f, found, name, rfl⟩ := node.functionOf? tree
  rw [← name] at last ⊢
  exact ⟨f, handler?_eq_some h.children found last, prompt_eq line silent node⟩

/-- The handler between two sources. -/
theorem parse?_among (sender : Sender) (blank : List BlankLine) {before after : List Char}
    {rest : SourceTree} (above : StandsAlone before) (below : Follows after)
    (parsed : SourceTree.parse? after = some rest) : ∃ tree upper handler lower,
      SourceTree.parse? (before ++ (sender.text ++ blank.flatMap BlankLine.text ++ after)) =
        some tree ∧ Sends tree sender upper handler lower ∧
      (lower.filterMap tree.functionOf?).map Function.name = rest.functions.map Function.name := by
  obtain ⟨inner, handler, inner_parsed, sends⟩ := parse?_sender sender blank below parsed
  obtain ⟨⟨upper, upper_parsed⟩, us, s, stands⟩ := above
  have start : StartsToken (sender.text ++ blank.flatMap BlankLine.text ++ after) :=
    ⟨'d', _, rfl, by decide⟩
  obtain ⟨tree, whole, children⟩ := parse?_append (stands.joins start) upper_parsed inner_parsed
  obtain ⟨_, -, -, inner_source⟩ := parse?_eq_some.mp inner_parsed
  obtain ⟨_, -, -, source⟩ := parse?_eq_some.mp whole
  have same (node : Node) : tree.text (node.moved before.length) = inner.text node :=
    SourceTree.text_moved (by rw [source, inner_source]) node
  refine ⟨tree, _, _, _, whole, sends.moved children same, ?_⟩
  rw [name_functionOf?_moved inner tree, name_functionOf?_moved rest inner]
  rfl

/-- A node has what the message of its handler shows as its prompt: the texts of the message as
they are, and its names between braces. It does not matter how the message is written. -/
theorem extract_prompt (sender : Sender) (blank : List BlankLine) {before after : List Char}
    {rest : SourceTree} (above : StandsAlone before) (below : Follows after)
    (parsed : SourceTree.parse? after = some rest)
    (last : ∀ f ∈ rest.functions, f.name ≠ sender.name.name) :
    let source := before ++ (sender.text ++ blank.flatMap BlankLine.text ++ after)
    ∃ tree, SourceTree.parse? source = some tree ∧
      ((∀ call ∈ builderCalls tree, ¬ Lacks call) → ∀ (k : Nat) (call : Call),
        (callsOf "add_node" (builderCalls tree))[k]? = some call →
          call.args[1]? = some (.name sender.name.name) →
            ∃ node : GraphNode, (extract (.ofList source)).nodes[k]? = some node ∧
              node.prompt = sender.prompt) := by
  intro source
  obtain ⟨tree, upper, handler, lower, whole, sends, names⟩ :=
    parse?_among sender blank above below parsed
  obtain ⟨f, found, prompt⟩ := sends.prompt (by
    rw [names]
    intro mem
    obtain ⟨f, among, name⟩ := List.mem_map.mp mem
    exact last f among name)
  refine ⟨tree, whole, fun complete k call place registered => ?_⟩
  obtain ⟨g, graph, nodes⟩ := graphOf_registers complete
  obtain ⟨node, here, first, second, more, args, rfl⟩ := nodes k call place
  have extracted : extract (.ofList source) = g := by
    rw [extract, extract?, String.toList_ofList, whole]
    dsimp only
    rw [graph]
  obtain rfl : second = .name sender.name.name := by
    rw [args] at registered
    exact Option.some.inj registered
  refine ⟨_, extracted ▸ here, ?_⟩
  rw [nodeOf, found]
  exact prompt

def identifier (first : Char) (more : List Char) (starts : isIdentStart first = true)
    (goesOn : more.all isIdentRest = true) (free : String.ofList (first :: more) ∉ keywords) :
    Identifier :=
  ⟨first, more, starts, List.all_eq_true.mp goesOn, free⟩

def identifierAsk : Identifier :=
  identifier 'a' ['s', 'k'] (by decide) (by decide) (by decide)

def identifierState : Identifier :=
  identifier 's' ['t', 'a', 't', 'e'] (by decide) (by decide) (by decide)

def identifierWho : Identifier :=
  identifier 'w' ['h', 'o'] (by decide) (by decide) (by decide)

/-- A handler that asks who is there, between braces and quotes, in three literals. -/
def askSender : Sender where
  name := identifierAsk
  parameter := identifierState
  indent := ⟨[' ', ' '], by simp, by simp⟩
  above := [.assignment identifierWho identifierState]
  silent line mem := by
    obtain rfl := List.mem_singleton.mp mem
    exact BodyLine.silent_assignment identifierWho identifierState
  usage := .value identifierState
  message := {
    first := .formatted [.text "\x7b", .name identifierWho]
    more := [(⟨[' '], by simp⟩, .plain ["\"\\", "\n"]), (⟨[], nofun⟩, .formatted [.text "\x7d"])]
    apart := ⟨nofun, nofun, trivial⟩ }
  below := [.assignment identifierWho identifierState]

def askBuilder : List Char :=
  "def create_agent():\n  g.add_node(\"n\", ask)\n  g.add_edge(\"n\", END)\n".toList

def emptyLine : BlankLine := ⟨[], none, nofun, nofun⟩

theorem standsAlone_importOs : StandsAlone "import os\n".toList := by
  refine ⟨Option.isSome_iff_exists.mp (by decide +kernel), exists_stands (n := 10) ?_ ?_⟩
  · exact WholeLines.append_break "import os".toList
  · decide +kernel

/-- The first node is registered for a name, and no call of the builder lacks an argument. -/
def registersFirst (name : String) (tree : SourceTree) : Bool :=
  (builderCalls tree).all (fun call => decide ¬ Lacks call) &&
    ((callsOf "add_node" (builderCalls tree))[0]?.bind fun call =>
      call.args[1]?.bind Expr.name?) == some name

theorem exists_registered {tree : SourceTree} {name : String}
    (h : registersFirst name tree = true) : (∀ call ∈ builderCalls tree, ¬ Lacks call) ∧
      ∃ call, (callsOf "add_node" (builderCalls tree))[0]? = some call ∧
        call.args[1]? = some (.name name) := by
  rw [registersFirst, Bool.and_eq_true, List.all_eq_true, beq_iff_eq,
    Option.bind_eq_some_iff] at h
  obtain ⟨complete, call, place, registered⟩ := h
  obtain ⟨second, arg, named⟩ := Option.bind_eq_some_iff.mp registered
  have same : second = .name name := by
    cases second with
    | name id => exact congrArg Expr.name (Option.some.inj named)
    | _ => contradiction
  exact ⟨fun call mem => of_decide_eq_true (complete call mem), call, place, same ▸ arg⟩

theorem extract_prompt_ask : ∃ node : GraphNode,
    (extract (.ofList ("import os\n".toList ++ (askSender.text ++
      [emptyLine].flatMap BlankLine.text ++ askBuilder)))).nodes[0]? = some node ∧
        node.prompt = "\x7b\x7bwho\x7d\"\\\n\x7d" := by
  have read : (SourceTree.parse? askBuilder).map (·.functions.map Function.name) =
      some ["create_agent"] := by decide +kernel
  obtain ⟨rest, parsed, names⟩ := Option.map_eq_some_iff.mp read
  obtain ⟨more, spelled⟩ := List.head?_eq_some_iff.mp
    (show askBuilder.head? = some 'd' by decide +kernel)
  have other : askSender.name.name ∉ rest.functions.map Function.name := by
    rw [names]
    decide +kernel
  obtain ⟨tree, whole, prompts⟩ := extract_prompt askSender [emptyLine] standsAlone_importOs
    (.inr ⟨'d', more, spelled, by decide⟩) parsed fun f mem name =>
      other (List.mem_map.mpr ⟨f, mem, name⟩)
  have registers : (SourceTree.parse? ("import os\n".toList ++ (askSender.text ++
      [emptyLine].flatMap BlankLine.text ++ askBuilder))).any
        (registersFirst askSender.name.name) = true := by decide +kernel
  rw [whole] at registers
  obtain ⟨complete, call, place, arg⟩ := exists_registered registers
  obtain ⟨node, here, prompt⟩ := prompts complete 0 call place arg
  exact ⟨node, here, prompt.trans (by decide +kernel)⟩

end AgentWorkbench.Extraction
