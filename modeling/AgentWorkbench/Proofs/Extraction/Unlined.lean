import AgentWorkbench.Proofs.Extraction.Shape
import AgentWorkbench.Proofs.Python.Signatures

/-!
Expressions without the lines of their calls. A line is looked at only where a registration lacks an
argument; all else that is recovered of an expression is recovered of it without its lines, so that
it is the same wherever in a source the expression stands.
-/
namespace AgentWorkbench.Python

namespace Expr

mutual

/-- The expression with all its calls on line 0. -/
def unlined : Expr → Expr
  | .str source text => .str source text
  | .formatted source parts => .formatted source parts
  | .constant source => .constant source
  | .name id => .name id
  | .attribute source object attr => .attribute source object.unlined attr
  | .call source _ callee args keywords =>
    .call source 0 callee.unlined (unlinedList args) (unlinedKeywords keywords)
  | .list source items => .list source (unlinedList items)
  | .other source => .other source

def unlinedList : List Expr → List Expr
  | [] => []
  | e :: rest => e.unlined :: unlinedList rest

def unlinedKeywords : List (Option String × Expr) → List (Option String × Expr)
  | [] => []
  | keyword :: rest => unlinedKeyword keyword :: unlinedKeywords rest

def unlinedKeyword : Option String × Expr → Option String × Expr
  | (key, value) => (key, value.unlined)

end

@[simp] theorem unlinedList_eq_map (es : List Expr) : unlinedList es = es.map unlined := by
  induction es with
  | nil => rfl
  | cons e rest ih => rw [unlinedList, ih, List.map_cons]

@[simp] theorem unlinedKeywords_eq_map (keywords : List (Option String × Expr)) :
    unlinedKeywords keywords = keywords.map unlinedKeyword := by
  induction keywords with
  | nil => rfl
  | cons keyword rest ih => rw [unlinedKeywords, ih, List.map_cons]

variable (e : Expr)

@[simp] theorem literal?_unlined : e.unlined.literal? = e.literal? := by cases e <;> rfl

@[simp] theorem name?_unlined : e.unlined.name? = e.name? := by cases e <;> rfl

@[simp] theorem identifier_unlined : e.unlined.identifier = e.identifier := by cases e <;> rfl

@[simp] theorem renderedText?_unlined : e.unlined.renderedText? = e.renderedText? := by
  cases e <;> rfl

end Expr

namespace Call

/-- The call with it and all calls in it on line 0. -/
def unlined (call : Call) : Call where
  line := 0
  callee := call.callee.unlined
  args := call.args.map Expr.unlined
  keywords := call.keywords.map Expr.unlinedKeyword

variable (call : Call)

@[simp] theorem method?_unlined : call.unlined.method? = call.method? := by
  obtain ⟨line, callee, args, keywords⟩ := call
  cases callee <;> rfl

@[simp] theorem receiver?_unlined : call.unlined.receiver? = call.receiver? := by
  obtain ⟨line, callee, args, keywords⟩ := call
  cases callee <;> first | exact Expr.name?_unlined _ | rfl

@[simp] theorem calleeName?_unlined : call.unlined.calleeName? = call.calleeName? := by
  rw [calleeName?, calleeName?, method?_unlined]
  exact congrArg (·.or call.method?) call.callee.name?_unlined

@[simp] theorem keyword?_unlined (name : String) :
    call.unlined.keyword? name = (call.keyword? name).map Expr.unlined := by
  have named : (fun keyword : Option String × Expr => decide (keyword.1 = some name)) ∘
      Expr.unlinedKeyword = fun keyword => decide (keyword.1 = some name) :=
    funext fun ⟨_, _⟩ => rfl
  have value : (fun keyword : Option String × Expr => keyword.2) ∘ Expr.unlinedKeyword =
      Expr.unlined ∘ fun keyword => keyword.2 :=
    funext fun ⟨_, _⟩ => rfl
  rw [keyword?, keyword?, unlined, List.find?_map, named, Option.map_map, Option.map_map, value]

end Call

@[simp] theorem Expr.call?_unlined (e : Expr) : e.unlined.call? = e.call?.map Call.unlined := by
  cases e <;> simp [unlined, call?, Call.unlined]

namespace Argument

def unlined : Argument → Argument
  | positional value => .positional value.unlined
  | keyword name value => .keyword name value.unlined

theorem filterMap_positional?_unlined (args : List Argument) :
    (args.map unlined).filterMap positional? = (args.filterMap positional?).map Expr.unlined := by
  rw [List.filterMap_map, List.map_filterMap]
  congr 1
  funext arg
  cases arg <;> rfl

theorem filterMap_keyword?_unlined (args : List Argument) :
    (args.map unlined).filterMap keyword? = (args.filterMap keyword?).map Expr.unlinedKeyword := by
  rw [List.filterMap_map, List.map_filterMap]
  congr 1
  funext arg
  cases arg <;> rfl

end Argument

/-! Expressions at two places. -/

/-- A node and the one `d` characters further on in another tree, with the same texts below
them. -/
def SameTexts (tree tree' : SourceTree) (d : Nat) (n : Node) : Prop :=
  ∀ m ∈ n.preorder, tree'.text (m.moved d) = tree.text m

namespace SameTexts

variable {tree tree' : SourceTree} {d : Nat} {n : Node}

theorem self (h : SameTexts tree tree' d n) : tree'.text (n.moved d) = tree.text n := by
  exact h n n.mem_preorder_self

theorem below {m : Node} (h : SameTexts tree tree' d n) (mem : m ∈ n.preorder) :
    SameTexts tree tree' d m :=
  fun k inside => h k (Node.mem_preorder_trans n mem inside)

theorem child (h : SameTexts tree tree' d n) : ∀ child ∈ n.children, SameTexts tree tree' d child :=
  fun child mem => h.below (Node.mem_preorder_of_child mem child.mem_preorder_self)

end SameTexts

namespace SourceTree

variable {tree tree' : SourceTree} {d : Nat}

theorem formatPart?_moved (flags : StringPrefix) {node : Node} (h : SameTexts tree tree' d node) :
    formatPart? tree' flags (node.moved d) = formatPart? tree flags node := by
  obtain ⟨kind, start, stop, children⟩ := node
  cases kind with
  | interpolation =>
    cases children with
    | nil => rfl
    | cons inner rest =>
      have same := (h.child inner List.mem_cons_self).self
      simp only [formatPart?, Node.moved, Node.movedList, Node.kind, Node.children,
        List.head?_cons, Option.map_some, same]
  | _ => rfl

/-- The parts of one of the strings that are written one after the other. -/
def pieceParts (tree : SourceTree) (piece : Node) : List FormatPart :=
  match stringFlags? piece with
  | some flags => piece.children.filterMap (formatPart? tree flags)
  | none => []

theorem lowerStrings_eq (tree : SourceTree) (source : String) (pieces : List Node) :
    lowerStrings tree source pieces =
      if (pieces.filterMap stringFlags?).any (·.bytes) then .constant source
      else if (pieces.filterMap stringFlags?).any (·.format) then
        .formatted source (mergeLiterals (pieces.flatMap (pieceParts tree)))
      else .str source (String.join ((pieces.flatMap (pieceParts tree)).map fun
        | .literal text => text
        | .interpolation text => text)) :=
  rfl

theorem stringFlags?_moved (node : Node) : stringFlags? (node.moved d) = stringFlags? node := by
  rw [stringFlags?, stringFlags?, Node.kind_moved]

theorem pieceParts_moved {piece : Node} (h : SameTexts tree tree' d piece) :
    pieceParts tree' (piece.moved d) = pieceParts tree piece := by
  rw [pieceParts, pieceParts, stringFlags?_moved]
  cases stringFlags? piece with
  | none => rfl
  | some flags =>
    obtain ⟨kind, start, stop, children⟩ := piece
    simp only [Node.children_moved, List.filterMap_map]
    exact List.filterMap_congr fun child mem => formatPart?_moved flags (h.child child mem)

theorem lowerStrings_moved (source : String) {pieces : List Node}
    (h : ∀ piece ∈ pieces, SameTexts tree tree' d piece) :
    lowerStrings tree' source (pieces.map (Node.moved d)) = lowerStrings tree source pieces := by
  have flags : (pieces.map (Node.moved d)).filterMap stringFlags? =
      pieces.filterMap stringFlags? := by
    rw [List.filterMap_map]
    exact List.filterMap_congr fun node _ => stringFlags?_moved node
  have parts : (pieces.map (Node.moved d)).flatMap (pieceParts tree') =
      pieces.flatMap (pieceParts tree) := by
    rw [List.flatMap_map]
    exact List.flatMap_congr fun piece mem => pieceParts_moved (h piece mem)
  rw [lowerStrings_eq, lowerStrings_eq, flags, parts]

/-- What stands for the one inner expression, if there is one. -/
theorem unlined_single {inner inner' : List Expr} (source : String)
    (h : inner'.map Expr.unlined = inner.map Expr.unlined) (f : Expr → Expr)
    (hf : ∀ e e' : Expr, e'.unlined = e.unlined → (f e').unlined = (f e).unlined) :
    (match inner' with
      | [e] => f e
      | _ => .other source).unlined =
    (match inner with
      | [e] => f e
      | _ => .other source).unlined := by
  have length := congrArg List.length h
  rw [List.length_map, List.length_map] at length
  match inner, inner', length with
  | [], [], _ => rfl
  | [e], [e'], _ => exact hf e e' (List.cons.inj h).1
  | _ :: _ :: _, _ :: _ :: _, _ => rfl

theorem unlined_argument (d : Nat) (node : Node) {e e' : Expr} (h : e'.unlined = e.unlined) :
    (argument (node.moved d) e').unlined = (argument node e).unlined := by
  rw [argument, argument, Node.kind_moved]
  split <;> simp only [Argument.unlined, h]

theorem unlined_zipWith_argument (d : Nat) (nodes : List Node) {es es' : List Expr}
    (h : es'.map Expr.unlined = es.map Expr.unlined) :
    ((nodes.map (Node.moved d)).zipWith argument es').map Argument.unlined =
      (nodes.zipWith argument es).map Argument.unlined := by
  induction nodes generalizing es es' with
  | nil => rfl
  | cons node nodes ih =>
    cases es' with
    | nil =>
      obtain rfl := List.map_eq_nil_iff.mp h.symm
      rfl
    | cons e' es' =>
      obtain ⟨e, es, rfl, here, later⟩ := List.map_eq_cons_iff.mp h.symm
      simp only [List.map_cons, List.zipWith_cons_cons, unlined_argument d node here.symm,
        ih later.symm]

/-! What a node stands for is the same in both trees, but for lines. The recursion is that of
`lower`: over a node, over some nodes, and over the arguments of a call. -/

mutual

theorem unlined_lower (d : Nat) : ∀ n : Node, SameTexts tree tree' d n →
    (tree'.lower (n.moved d)).unlined = (tree.lower n).unlined
  | .mk kind start stop children, h => by
    have text : tree'.text (.mk kind (start + d) (stop + d) (Node.movedList d children)) =
        tree.text (.mk kind start stop children) := h.self
    have below : ∀ child ∈ children, SameTexts tree tree' d child := h.child
    have inner := unlined_lowerList d children below
    by_cases named : ∃ name, kind = .attribute name
    · obtain ⟨name, rfl⟩ := named
      simp only [Node.moved, lower, text]
      refine unlined_single _ inner (.attribute _ · name) fun _ _ same => ?_
      simp only [Expr.unlined, same]
    cases kind with
    | string flags =>
      simp only [Node.moved, lower, text]
      refine congrArg Expr.unlined ((lowerStrings_moved _ fun piece mem => ?_) :
        lowerStrings tree' _ ([Node.mk _ start stop children].map (Node.moved d)) = _)
      exact List.mem_singleton.mp mem ▸ h
    | concatenation =>
      simp only [Node.moved, lower, text]
      rw [Node.movedList_eq_map, lowerStrings_moved _ below]
    | group | keywordArgument =>
      simp only [Node.moved, lower, text]
      exact unlined_single _ inner id fun _ _ same => same
    | list => simp only [Node.moved, lower, Expr.unlined, text, Expr.unlinedList_eq_map, inner]
    | call =>
      match children, below, text with
      | [callee, arguments], below, text =>
        have callee_eq := unlined_lower d callee (below callee (by simp))
        have args_eq := unlined_lowerArguments d arguments (below arguments (by simp))
        simp only [Node.movedList] at text
        simp only [Node.moved, Node.movedList, lower, Expr.unlined, text, callee_eq,
          Expr.unlinedList_eq_map, Expr.unlinedKeywords_eq_map,
          ← Argument.filterMap_positional?_unlined, ← Argument.filterMap_keyword?_unlined, args_eq]
      | [], _, text | [_], _, text | _ :: _ :: _ :: _, _, text =>
        simp only [Node.movedList] at text
        simp only [Node.moved, Node.movedList, lower, text]
    | _ => first | exact absurd ⟨_, rfl⟩ named | simp only [Node.moved, lower, text]

theorem unlined_lowerList (d : Nat) : ∀ ns : List Node, (∀ n ∈ ns, SameTexts tree tree' d n) →
    (tree'.lowerList (Node.movedList d ns)).map Expr.unlined = (tree.lowerList ns).map Expr.unlined
  | [], _ => rfl
  | n :: ns, h => by
    obtain ⟨here, later⟩ := List.forall_mem_cons.mp h
    simp only [Node.movedList, lowerList, List.map_cons, unlined_lower d n here,
      unlined_lowerList d ns later]

theorem unlined_lowerArguments (d : Nat) : ∀ n : Node, SameTexts tree tree' d n →
    (tree'.lowerArguments (n.moved d)).map Argument.unlined =
      (tree.lowerArguments n).map Argument.unlined
  | .mk kind start stop children, h => by
    have text : tree'.text (.mk kind (start + d) (stop + d) (Node.movedList d children)) =
        tree.text (.mk kind start stop children) := h.self
    have inner := unlined_lowerList d children h.child
    cases kind with
    | arguments =>
      simp only [Node.moved, lowerArguments, Node.movedList_eq_map] at inner ⊢
      exact unlined_zipWith_argument d children inner
    | _ => simp only [Node.moved, lowerArguments, text]

end

theorem unlined_callsIn {n : Node} (h : SameTexts tree tree' d n) :
    (tree'.callsIn (n.moved d)).map Call.unlined = (tree.callsIn n).map Call.unlined := by
  rw [callsIn, callsIn, Node.walk_eq_preorder, Node.walk_eq_preorder, Node.preorder_moved,
    List.filterMap_map, List.map_filterMap, List.map_filterMap]
  refine List.filterMap_congr fun m mem => ?_
  rw [Function.comp_apply, Node.kind_moved]
  split
  · rw [← Expr.call?_unlined, ← Expr.call?_unlined, unlined_lower d m (h.below mem)]
  · rfl

/-! Definitions at two places. -/

theorem docstring?_moved {body : Node} (h : SameTexts tree tree' d body) :
    tree'.docstring? (body.moved d) = tree.docstring? body := by
  obtain ⟨_, _, _, _ | ⟨⟨kind, start, stop, children⟩, rest⟩⟩ := body
  · rfl
  · cases kind with
    | expressionStatement =>
      match children, h with
      | [node], h =>
        have first := h.child _ List.mem_cons_self
        have same := unlined_lower d node (first.child node List.mem_cons_self)
        simp only [docstring?, Node.moved, Node.movedList, Node.children, Node.kind]
        generalize tree.lower node = e at same ⊢
        generalize tree'.lower (node.moved d) = e' at same ⊢
        cases e <;> cases e' <;> simp_all [Expr.unlined]
      | [], _ | _ :: _ :: _, _ => rfl
    | _ => rfl

end SourceTree

namespace Node

theorem functionDefinition?_mem_preorder {n : Node} {name : String} {definition : Node}
    (h : n.functionDefinition? = some (name, definition)) : definition ∈ n.preorder := by
  rw [functionDefinition?] at h
  split at h
  · next inner found =>
    have below : inner ∈ n.preorder := by
      split at found
      · exact mem_preorder_of_child (List.mem_of_getLast? found) inner.mem_preorder_self
      · exact Option.some.inj found ▸ n.mem_preorder_self
    split at h
    · obtain rfl := (Prod.mk.inj (Option.some.inj h)).2
      exact below
    · contradiction
  · contradiction

theorem assignmentChain_moved (d : Nat) (n : Node) :
    (n.moved d).assignmentChain = (n.assignmentChain.1, n.assignmentChain.2.moved d) := by
  cases n with
  | mk kind start stop children =>
    cases kind with
    | assignment annotated =>
      obtain _ | ⟨target, _ | ⟨right, _ | ⟨third, more⟩⟩⟩ := children
      case cons.cons.nil =>
        have chain := assignmentChain_moved d right
        simp only [moved, movedList, assignmentChain, kind_moved, chain]
        split <;> rfl
      all_goals rfl
    | _ => rfl

theorem assignmentChain_mem_preorder (n : Node) : n.assignmentChain.2 ∈ n.preorder := by
  cases n with
  | mk kind start stop children =>
    cases kind with
    | assignment annotated =>
      obtain _ | ⟨target, _ | ⟨right, _ | ⟨third, more⟩⟩⟩ := children
      case cons.cons.nil =>
        have below : right.assignmentChain.2 ∈
            (mk (.assignment annotated) start stop [target, right]).preorder :=
          mem_preorder_of_child (List.mem_cons_of_mem _ List.mem_cons_self)
            (assignmentChain_mem_preorder right)
        simp only [assignmentChain]
        split <;> exact below
      all_goals exact mem_preorder_self _
    | _ => exact mem_preorder_self _

end Node

/-- The function in another tree, `d` characters further on. -/
def Function.moved (d : Nat) (f : Function) : Function :=
  { f with node := f.node.moved d }

namespace SourceTree

variable {tree tree' : SourceTree} {d : Nat} {n : Node}

theorem functionOf?_moved (h : SameTexts tree tree' d n) :
    tree'.functionOf? (n.moved d) = (tree.functionOf? n).map (Function.moved d) := by
  rw [functionOf?, functionOf?, Node.functionDefinition?_moved, Option.map_map, Option.map_map]
  refine Option.map_congr fun x found => ?_
  obtain ⟨name, definition⟩ := x
  have below := h.below (Node.functionDefinition?_mem_preorder found)
  have docstring : ((definition.moved d).childOfKind? .block).bind tree'.docstring? =
      (definition.childOfKind? .block).bind tree.docstring? := by
    rw [Node.childOfKind?_moved, Option.bind_map]
    refine Option.bind_congr fun body found => ?_
    exact docstring?_moved (below.child body (List.mem_of_find?_eq_some found))
  have params := definition.positional_moved d
  rw [Node.positional, Node.positional] at params
  simp only [Function.comp_apply, Function.moved, docstring, params]

end SourceTree

end AgentWorkbench.Python

namespace AgentWorkbench.Extraction

open Python

/-! What is recovered of expressions without lines. -/

theorem modelsOf_unlined (call : Call) : modelsOf call.unlined = modelsOf call := by
  rw [modelsOf, modelsOf, Call.unlined, List.filterMap_map]
  refine List.filterMap_congr fun ⟨key, value⟩ _ => ?_
  simp only [Function.comp_apply, Expr.unlinedKeyword, Expr.literal?_unlined]

theorem messageText?_unlined (e : Expr) : messageText? e.unlined = messageText? e := by
  rw [messageText?, messageText?, Expr.call?_unlined]
  cases e.call? with
  | none => rfl
  | some call =>
    have content : ((call.unlined.keyword? "content").or call.unlined.args.head?) =
        ((call.keyword? "content").or call.args.head?).map Expr.unlined := by
      rw [Call.keyword?_unlined, Call.unlined, List.head?_map]
      cases call.keyword? "content" <;> rfl
    simp only [Option.map_some, Option.bind_eq_bind, Option.bind_some, Call.calleeName?_unlined,
      content, Option.bind_map, Function.comp_def, Expr.renderedText?_unlined]

theorem messagesIn_unlined (e : Expr) : messagesIn e.unlined = (messagesIn e).map Expr.unlined := by
  cases e <;> simp [messagesIn, Expr.unlined]

/-- The message that a call sends. -/
def sent? (call : Call) : Option String :=
  call.args.findSome? fun arg => (messagesIn arg).findSome? messageText?

theorem sent?_unlined (call : Call) : sent? call.unlined = sent? call := by
  rw [sent?, sent?, Call.unlined, List.findSome?_map]
  congr 1
  funext arg
  rw [Function.comp_apply, messagesIn_unlined, List.findSome?_map]
  congr 1
  funext e
  exact messageText?_unlined e

section Bodies

variable {tree tree' : SourceTree} {d : Nat} {body : Node}

theorem unlined_invocations (h : SameTexts tree tree' d body) :
    (invocations tree' (body.moved d)).map Call.unlined =
      (invocations tree body).map Call.unlined := by
  have method : (fun call : Call => decide (call.method? = some invokeMethod)) ∘ Call.unlined =
      fun call => decide (call.method? = some invokeMethod) := by
    funext call
    rw [Function.comp_apply, Call.method?_unlined]
  have filtered (calls : List Call) :
      (calls.filter (·.method? = some invokeMethod)).map Call.unlined =
        (calls.map Call.unlined).filter (·.method? = some invokeMethod) := by
    rw [List.filter_map, method]
  rw [invocations, invocations, filtered, filtered, SourceTree.unlined_callsIn h]

theorem findSome?_of_unlined {α : Type} {f : Call → Option α}
    (hf : ∀ call, f call.unlined = f call) {calls calls' : List Call}
    (h : calls'.map Call.unlined = calls.map Call.unlined) :
    calls'.findSome? f = calls.findSome? f := by
  have unlined (calls : List Call) : (calls.map Call.unlined).findSome? f = calls.findSome? f := by
    rw [List.findSome?_map]
    congr 1
    funext call
    exact hf call
  rw [← unlined, h, unlined]

theorem prompt_moved (h : SameTexts tree tree' d body) :
    prompt tree' (body.moved d) = prompt tree body :=
  congrArg (·.getD "") (findSome?_of_unlined sent?_unlined (unlined_invocations h))

theorem model_moved (h : SameTexts tree tree' d body) (bindings : ModelBindings) :
    model tree' bindings (body.moved d) = model tree bindings body :=
  congrArg (fun name => (name.bind bindings.model?).getD "")
    (findSome?_of_unlined Call.receiver?_unlined (unlined_invocations h))

/-- The models that a statement binds. -/
def bindingsOf (tree : SourceTree) (n : Node) : ModelBindings :=
  match tree.callAssignment? n with
  | some assignment => (modelsOf assignment.call).flatMap fun model => assignment.targets.map (·, model)
  | none => []

theorem modelBindings_eq (tree : SourceTree) :
    modelBindings tree = tree.root.children.flatMap (bindingsOf tree) := by
  rw [modelBindings, SourceTree.callAssignments]
  induction tree.root.children with
  | nil => rfl
  | cons n rest ih =>
    rw [List.flatMap_cons, List.filterMap_cons, ← ih, bindingsOf]
    cases tree.callAssignment? n with
    | none => rfl
    | some assignment => rw [List.flatMap_cons]

theorem bindingsOf_statement (inner : Node) (start stop : Nat) :
    bindingsOf tree (.mk .expressionStatement start stop [inner]) =
      if inner.kind = .assignment false then
        ((tree.lower inner.assignmentChain.2).call?.toList.flatMap modelsOf).flatMap fun model =>
          inner.assignmentChain.1.map (·, model)
      else [] := by
  have assignment : tree.callAssignment? (.mk .expressionStatement start stop [inner]) =
      if inner.kind = .assignment false then
        (tree.lower inner.assignmentChain.2).call?.map fun call =>
          ⟨inner.assignmentChain.1, tree.lower inner.assignmentChain.2, call⟩
      else none := rfl
  rw [bindingsOf, assignment]
  split_ifs
  · cases (tree.lower inner.assignmentChain.2).call? with
    | none => rfl
    | some call => simp
  · rfl

theorem bindingsOf_moved {n : Node} (h : SameTexts tree tree' d n) :
    bindingsOf tree' (n.moved d) = bindingsOf tree n := by
  obtain ⟨kind, start, stop, children⟩ := n
  cases kind with
  | expressionStatement =>
    match children, h with
    | [inner], h =>
      have below := (h.child inner List.mem_cons_self).below inner.assignmentChain_mem_preorder
      have called := congrArg Expr.call? (SourceTree.unlined_lower d _ below)
      rw [Expr.call?_unlined, Expr.call?_unlined] at called
      have models (call? : Option Call) : call?.toList.flatMap modelsOf =
          (call?.map Call.unlined).toList.flatMap modelsOf := by
        cases call? with
        | none => rfl
        | some call => simp [modelsOf_unlined]
      rw [Node.moved, Node.movedList, Node.movedList, bindingsOf_statement, bindingsOf_statement,
        Node.kind_moved, Node.assignmentChain_moved, models, called, ← models]
    | [], _ | _ :: _ :: _, _ => rfl
  | _ => rfl

end Bodies

end AgentWorkbench.Extraction
