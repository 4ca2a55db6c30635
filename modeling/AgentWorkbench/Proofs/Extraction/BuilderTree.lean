import AgentWorkbench.Proofs.Extraction.Builder
import AgentWorkbench.Proofs.Python.File
import AgentWorkbench.Proofs.Python.Walk

/-!
The tree of a builder. It holds one function, and every line of its body is a statement with one
call below it, which registers what the line says.
-/
namespace AgentWorkbench.Extraction

open Python Python.Grammar Python.Parse

/-! Calls below some nodes. -/

def callAt? (tree : SourceTree) (node : Node) : Option Call :=
  if node.kind = .call then (tree.lower node).call? else none

def callsBelow (tree : SourceTree) (nodes : List Node) : List Call :=
  (Node.preorderList nodes).filterMap (callAt? tree)

section Calls

variable (tree : SourceTree)

@[simp] theorem callsBelow_nil : callsBelow tree [] = [] := rfl

@[simp] theorem callsBelow_cons (node : Node) (rest : List Node) :
    callsBelow tree (node :: rest) =
      (callAt? tree node).toList ++ callsBelow tree node.children ++ callsBelow tree rest := by
  obtain ⟨kind, start, stop, children⟩ := node
  simp only [callsBelow, Node.preorderList, Node.preorder, Node.children, List.cons_append,
    List.filterMap_cons, List.filterMap_append]
  cases callAt? tree (.mk kind start stop children) <;> simp

theorem callsBelow_singleton {node : Node} (h : node.kind ≠ .call) :
    callsBelow tree [node] = callsBelow tree node.children := by
  rw [callsBelow_cons, callAt?, if_neg h]
  exact List.append_nil _

theorem callsBelow_append (nodes more : List Node) :
    callsBelow tree (nodes ++ more) = callsBelow tree nodes ++ callsBelow tree more := by
  simp [callsBelow, Node.preorderList_eq_flatMap]

theorem callsIn_eq_callsBelow (node : Node) : tree.callsIn node = callsBelow tree [node] := by
  rw [SourceTree.callsIn, Node.walk_eq_preorder, callsBelow, Node.preorderList,
    Node.preorderList, List.append_nil]
  rfl

end Calls

/-! Lines. -/

def literalNode (token : Token) (content : List Char) : Node :=
  .between token token (.string {})
    (if content.isEmpty then [] else [.leaf token (.segment content)])

theorem lower_literalNode (tree : SourceTree) (token : Token) (content : List Char) :
    ∃ source, tree.lower (literalNode token content) =
      .str source (String.ofList (decodeEscapes content)) := by
  cases content with
  | nil => exact ⟨_, rfl⟩
  | cons c rest =>
      refine ⟨_, congrArg (Expr.str _) ?_⟩
      exact String.empty_append

/-- A literal with the escapes of a text is lowered to the text. -/
theorem lower_escaped (tree : SourceTree) (token : Token) (text : String) :
    ∃ source, tree.lower (literalNode token (escaped text.toList)) = .str source text := by
  obtain ⟨source, lowered⟩ := lower_literalNode tree token (escaped text.toList)
  rw [decodeEscapes_escaped, String.ofList_toList] at lowered
  exact ⟨source, lowered⟩

theorem callsBelow_literalNode (tree : SourceTree) (token : Token) (content : List Char) :
    callsBelow tree [literalNode token content] = [] := by
  cases content <;> rfl

namespace BuilderLine

def firstNode (token : Token) (line : BuilderLine) : Node :=
  literalNode token (escaped line.first.toList)

def secondNode (token : Token) : BuilderLine → Node
  | node _ => .leaf token (.identifier "h")
  | edge _ target => literalNode token (escaped target.toList)

def IsSecond : BuilderLine → Expr → Prop
  | node _, e => e = .name "h"
  | edge _ target, e => e.identifier = target

/-- What a line registers. -/
structure Gives (line : BuilderLine) (r : Registered) : Prop where
  registration : r.registration = line.registration
  first : r.first.identifier = line.first
  second : line.IsSecond r.second

/-- A line's statement: the one call below it registers what the line says. -/
def Statement (line : BuilderLine) (node : Node) : Prop :=
  ∀ tree, ∃ call r, callsBelow tree node.children = [call] ∧ registered? call = .ok (some r) ∧
    line.Gives r

section Call

variable (line : BuilderLine) (tree : SourceTree)
  (object name opening closing first second : Token)

theorem identifier_lower_firstNode : (tree.lower (line.firstNode first)).identifier = line.first := by
  obtain ⟨source, lowered⟩ := lower_escaped tree first line.first
  exact congrArg Expr.identifier lowered

theorem isSecond_lower : line.IsSecond (tree.lower (line.secondNode second)) := by
  cases line with
  | node _ => rfl
  | edge _ target =>
      obtain ⟨source, lowered⟩ := lower_escaped tree second target
      exact congrArg Expr.identifier lowered

theorem callsBelow_secondNode : callsBelow tree [line.secondNode second] = [] := by
  cases line with
  | node _ => rfl
  | edge _ target => exact callsBelow_literalNode tree second _

def callee : Node :=
  .mk (.attribute line.registration.method) object.start name.stop
    [.leaf object (.identifier "g")]

def arguments : Node :=
  .between opening closing .arguments [line.firstNode first, line.secondNode second]

/-- The call of a line: a method of `g` with the line's arguments. -/
def call : Node :=
  .spanning .call [line.callee object name, line.arguments opening closing first second]

theorem registered?_call :
    ∃ call, callAt? tree (line.call object name opening closing first second) = some call ∧
      registered? call = .ok (some {
        registration := line.registration
        first := tree.lower (line.firstNode first)
        second := tree.lower (line.secondNode second) }) := by
  cases line <;> exact ⟨_, rfl, rfl⟩

theorem callsBelow_arguments :
    callsBelow tree [line.arguments opening closing first second] = [] := by
  have children := callsBelow_append tree [line.firstNode first] [line.secondNode second]
  rw [firstNode, callsBelow_literalNode, callsBelow_secondNode] at children
  exact (callsBelow_singleton tree (by nofun)).trans children

/-- Nothing below a line's call is a call. -/
theorem callsBelow_call :
    callsBelow tree (line.call object name opening closing first second).children = [] := by
  have callee : callsBelow tree [line.callee object name] = [] := rfl
  have children := callsBelow_append tree [line.callee object name]
    [line.arguments opening closing first second]
  rw [callee, callsBelow_arguments] at children
  exact children

/-- A line's statement over its call. -/
theorem statement_call : line.Statement (.spanning .block [.spanning .expressionStatement
    [line.call object name opening closing first second]]) := by
  intro tree
  obtain ⟨call, called, registered⟩ :=
    line.registered?_call tree object name opening closing first second
  refine ⟨call, _, ?_, registered, rfl, line.identifier_lower_firstNode tree first,
    line.isSecond_lower tree second⟩
  have below := line.callsBelow_call tree object name opening closing first second
  refine (callsBelow_singleton tree (by nofun)).trans ?_
  change callsBelow tree [line.call ..] = [call]
  rw [callsBelow_cons, called, below]
  rfl

end Call

set_option maxRecDepth 1024 in
/-- A line's tokens are read as its statement, whatever follows them. -/
theorem read_line (line : BuilderLine) {ts : List Token} (h : ts.map (·.kind) = line.kinds)
    (fuel : Nat) : ∃ node, line.Statement node ∧
      ∀ rest, read (fuel + 12) .line (ts ++ rest) = some (node, rest) := by
  simp only [kinds, List.map_eq_cons_iff, List.map_eq_nil_iff] at h
  obtain ⟨⟨_, s₀, e₀⟩, _, rfl, rfl, ⟨_, s₁, e₁⟩, _, rfl, rfl, ⟨_, s₂, e₂⟩, _, rfl, rfl,
    ⟨_, s₃, e₃⟩, _, rfl, rfl, ⟨_, s₄, e₄⟩, _, rfl, rfl, ⟨_, s₅, e₅⟩, _, rfl, rfl,
    ⟨_, s₆, e₆⟩, _, rfl, rfl, ⟨_, s₇, e₇⟩, _, rfl, rfl, ⟨_, s₈, e₈⟩, _, rfl, rfl, rfl⟩ := h
  refine ⟨_, line.statement_call ⟨.name "g", s₀, e₀⟩ ⟨.name line.registration.method, s₂, e₂⟩
    ⟨.op "(", s₃, e₃⟩ ⟨.op ")", s₇, e₇⟩ ⟨.string {} (escaped line.first.toList), s₄, e₄⟩
    ⟨line.secondKind, s₆, e₆⟩, fun rest => ?_⟩
  cases line with
  | node id => rfl
  | edge source target => rfl

end BuilderLine

/-- The tokens of some lines are read as their statements, up to the end of the block. -/
theorem manyWithin_builderLines (lines : List BuilderLine) {ts : List Token}
    (h : ts.map (·.kind) = lines.flatMap (·.kinds)) (fuel : Nat) {dedent : Token}
    (ends : dedent.kind = .dedent) (rest : List Token) {budget : List Token}
    (enough : ts.length ≤ budget.length) :
    ∃ statements, List.Forall₂ BuilderLine.Statement lines statements ∧
      manyWithin (read (fuel + 12) .line) budget (ts ++ dedent :: rest) =
        some (statements, dedent :: rest) := by
  induction lines generalizing ts budget with
  | nil =>
      obtain rfl := List.map_eq_nil_iff.mp h
      have stops : read (fuel + 12) .line (dedent :: rest) = none :=
        read_line_continuing (by rw [ends]; decide) (fuel + 5) rest
      refine ⟨[], .nil, ?_⟩
      cases budget with
      | nil => rfl
      | cons _ _ => simp only [List.nil_append, manyWithin, stops]
  | cons line lines ih =>
      obtain ⟨piece, more, rfl, own, later⟩ := List.map_eq_append_iff.mp h
      have width : piece.length = 9 := by rw [← List.length_map, own]; rfl
      rw [List.length_append, width] at enough
      obtain ⟨statement, good, reads⟩ := line.read_line own fuel
      cases budget with
      | nil => exact absurd enough (by simp)
      | cons _ budget =>
          rw [List.length_cons] at enough
          obtain ⟨statements, all_good, reads_more⟩ :=
            ih later (show more.length ≤ budget.length by omega)
          refine ⟨statement :: statements, .cons good all_good, ?_⟩
          simp only [List.append_assoc, manyWithin, reads, reads_more, Option.map_some]

theorem many1_builderLines (first : BuilderLine) (lines : List BuilderLine) {ts : List Token}
    (h : ts.map (·.kind) = (first :: lines).flatMap (·.kinds)) (fuel : Nat) {dedent : Token}
    (ends : dedent.kind = .dedent) (rest : List Token) :
    ∃ statements, List.Forall₂ BuilderLine.Statement (first :: lines) statements ∧
      many1 (read (fuel + 12) .line) (ts ++ dedent :: rest) =
        some (statements, dedent :: rest) := by
  obtain ⟨piece, more, rfl, own, later⟩ := List.map_eq_append_iff.mp h
  obtain ⟨statement, good, reads⟩ := first.read_line own fuel
  obtain ⟨statements, all_good, reads_more⟩ := manyWithin_builderLines lines later fuel ends rest
    (show more.length ≤ (more ++ dedent :: rest).length by simp)
  refine ⟨statement :: statements, .cons good all_good, ?_⟩
  simp only [many1, many, bind_apply, pure_apply, List.append_assoc, reads, reads_more,
    Option.bind_some]

/-- The function of a builder over its statements. -/
def builderNode (keyword opening closing : Token) (statements : List Node) : Node :=
  .onward keyword (.function builderName false)
    [.between opening closing .parameters [], blockOf statements]

theorem callsIn_builderNode (tree : SourceTree) (keyword opening closing : Token)
    (statements : List Node) : tree.callsIn (builderNode keyword opening closing statements) =
      callsBelow tree (statements.flatMap Node.children) := by
  have parameters : callsBelow tree [.between opening closing .parameters []] = [] := rfl
  have body : callsBelow tree [blockOf statements] =
      callsBelow tree (statements.flatMap Node.children) := callsBelow_singleton tree (by nofun)
  have children := callsBelow_append tree [.between opening closing .parameters []]
    [blockOf statements]
  rw [parameters, body] at children
  rw [callsIn_eq_callsBelow]
  exact (callsBelow_singleton tree (by nofun)).trans children

section Definition

variable {p : Goal → Parse Node} {ts rest : List Token} {statements : List Node} {dedent : Token}
  (ends : dedent.kind = .dedent)
  (reads : many1 (p .line) ts = some (statements, dedent :: rest))

include ends reads

theorem suite_block (s₀ e₀ s₁ e₁ s₂ e₂ : Nat) :
    suite p (⟨.op ":", s₀, e₀⟩ :: ⟨.newline, s₁, e₁⟩ :: ⟨.indent, s₂, e₂⟩ :: ts) =
      some (blockOf statements, rest) := by
  have closed : accept .dedent (dedent :: rest) = some (dedent, rest) := if_pos ends
  simp only [suite, bind_apply, orElse_apply]
  change ((many1 (p .line) ts).bind _).or _ = _
  rw [reads, Option.bind_some, closed]
  rfl

/-- A function without parameters whose body is an indented block. -/
theorem functionDefinition_builder (s₀ e₀ s₁ e₁ s₂ e₂ s₃ e₃ s₄ e₄ s₅ e₅ s₆ e₆ : Nat) :
    functionDefinition p none (⟨.keyword "def", s₀, e₀⟩ :: ⟨.name "create_agent", s₁, e₁⟩ ::
      ⟨.op "(", s₂, e₂⟩ :: ⟨.op ")", s₃, e₃⟩ :: ⟨.op ":", s₄, e₄⟩ :: ⟨.newline, s₅, e₅⟩ ::
      ⟨.indent, s₆, e₆⟩ :: ts) =
        some (builderNode ⟨.keyword "def", s₀, e₀⟩ ⟨.op "(", s₂, e₂⟩ ⟨.op ")", s₃, e₃⟩
          statements, rest) := by
  have body := suite_block ends reads s₄ e₄ s₅ e₅ s₆ e₆
  simp only [functionDefinition, bind_apply]
  change (suite p _).bind _ = _
  rw [body]
  rfl

end Definition

theorem line_of_functionDefinition {p : Goal → Parse Node} {ts rest : List Token} {node : Node}
    (h : functionDefinition p none ts = some (node, rest)) :
    line p ts = some (.spanning .block [node], rest) := by
  simp only [line, compoundStatement, orElse_apply, bind_apply, h, Option.some_or, Option.bind_some,
    pure_apply]

theorem file_builder (first : BuilderLine) (lines : List BuilderLine) {ts : List Token}
    (h : ts.map (·.kind) = builderKinds (first :: lines)) :
    ∃ keyword opening closing statements,
      List.Forall₂ BuilderLine.Statement (first :: lines) statements ∧
        file ts = some (.spanning .file [builderNode keyword opening closing statements]) := by
  obtain ⟨fuel, deep⟩ := Nat.exists_eq_add_of_le' (show 13 ≤ depth ts by simp [depth])
  simp only [builderKinds, headerKinds, List.cons_append, List.nil_append, List.map_eq_cons_iff] at h
  obtain ⟨⟨_, s₀, e₀⟩, _, rfl, rfl, ⟨_, s₁, e₁⟩, _, rfl, rfl, ⟨_, s₂, e₂⟩, _, rfl, rfl,
    ⟨_, s₃, e₃⟩, _, rfl, rfl, ⟨_, s₄, e₄⟩, _, rfl, rfl, ⟨_, s₅, e₅⟩, _, rfl, rfl,
    ⟨_, s₆, e₆⟩, body, rfl, rfl, h⟩ := h
  obtain ⟨body, _, rfl, own, last⟩ := List.map_eq_append_iff.mp h
  obtain ⟨dedent, _, rfl, ends, last⟩ := List.map_eq_cons_iff.mp last
  obtain rfl := List.map_eq_nil_iff.mp last
  obtain ⟨statements, good, reads⟩ := many1_builderLines first lines own fuel ends []
  have whole : read (fuel + 13) .line _ = some _ := line_of_functionDefinition
    (functionDefinition_builder ends reads s₀ e₀ s₁ e₁ s₂ e₂ s₃ e₃ s₄ e₄ s₅ e₅ s₆ e₆)
  let function := builderNode ⟨.keyword "def", s₀, e₀⟩ ⟨.op "(", s₂, e₂⟩ ⟨.op ")", s₃, e₃⟩ statements
  refine ⟨_, _, _, statements, good,
    file_eq_some_iff.mpr ⟨[.spanning .block [function]], ?_, rfl⟩⟩
  rw [deep]
  simp only [many, manyWithin, whole, read_line_nil]
  rfl

end AgentWorkbench.Extraction
