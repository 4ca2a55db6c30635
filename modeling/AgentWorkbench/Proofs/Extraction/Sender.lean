import AgentWorkbench.Proofs.Extraction.MessageNodes

/-!
The tree of a handler that sends a message. Its line is read as the call that sends it, from the
message outwards.
-/
namespace AgentWorkbench.Extraction

open Python Python.Grammar Python.Parse Python.Lexer

/-! The call. -/

/-- The call that sends a message. -/
inductive CallNode (message : Node) : Node → Prop
  | mk (s₀ e₀ s₁ e₁ s₂ e₂ s₃ e₃ s₄ e₄ s₅ e₅ s₆ e₆ s₇ e₇ s₈ e₈ : Nat) :
    CallNode message (.mk .call s₀ e₀ [
      .mk (.attribute "invoke") s₁ e₁ [.mk (.identifier "llm") s₂ e₂ []],
      .mk .arguments s₃ e₃ [.mk .list s₄ e₄ [.mk .call s₅ e₅ [
        .mk (.identifier "HumanMessage") s₆ e₆ [],
        .mk .arguments s₇ e₇ [.mk (.keywordArgument "content") s₈ e₈ [message]]]]]])

theorem not_mem_signs {kind : TokenKind} (h : IsLiteral kind) : kind ∉ signs := by
  intro mem
  simp only [signs, List.mem_cons, List.not_mem_nil, or_false] at mem
  obtain rfl | rfl | rfl | rfl | rfl | rfl | rfl | rfl | rfl | rfl | rfl := mem <;> exact h

theorem literals_start (literals : Literals) {ts : List Token}
    (h : ts.map (·.kind) = literals.kinds) : ∃ t rest, ts = t :: rest ∧ IsLiteral t.kind := by
  rw [Literals.kinds] at h
  cases piece : literals.first with
  | formatted parts =>
      rw [piece] at h
      obtain ⟨t, rest, rfl, kind, -⟩ := List.map_eq_cons_iff.mp h
      exact ⟨t, rest, rfl, kind ▸ trivial⟩
  | plain texts =>
      rw [piece] at h
      obtain ⟨t, rest, rfl, kind, -⟩ := List.map_eq_cons_iff.mp h
      exact ⟨t, rest, rfl, kind ▸ trivial⟩

theorem read_call (fuel : Nat) (sender : Sender) {ts : List Token}
    (h : ts.map (·.kind) = sender.callKinds) : ∃ message pieces call, CallNode message call ∧
      (∀ tree, (∀ t ∈ ts, Covers tree.source t) →
        Message tree (sender.message.parts.flatMap Part.shown) message pieces) ∧
      ∀ rest, Closes rest → primary (read (fuel + 20)) (ts ++ rest) = some (call, rest) := by
  rw [Sender.callKinds, List.append_assoc] at h
  obtain ⟨front, _, rfl, head, h⟩ := List.map_eq_append_iff.mp h
  obtain ⟨literals, last, rfl, own, last_kinds⟩ := List.map_eq_append_iff.mp h
  simp only [List.map_eq_cons_iff, List.map_eq_nil_iff] at head last_kinds
  obtain ⟨⟨_, s₀, e₀⟩, _, rfl, rfl, ⟨_, s₁, e₁⟩, _, rfl, rfl, ⟨_, s₂, e₂⟩, _, rfl, rfl,
    ⟨_, s₃, e₃⟩, _, rfl, rfl, ⟨_, s₄, e₄⟩, _, rfl, rfl, ⟨_, s₅, e₅⟩, _, rfl, rfl,
    ⟨_, s₆, e₆⟩, _, rfl, rfl, ⟨_, s₇, e₇⟩, _, rfl, rfl, ⟨_, s₈, e₈⟩, _, rfl, rfl, rfl⟩ := head
  obtain ⟨⟨_, s₉, e₉⟩, _, rfl, rfl, ⟨_, s₁₀, e₁₀⟩, _, rfl, rfl, ⟨_, s₁₁, e₁₁⟩, _, rfl, rfl, rfl⟩ :=
    last_kinds
  obtain ⟨message, pieces, reads, shown⟩ := read_literals fuel sender.message own
  obtain ⟨t, more, rfl, literal⟩ := literals_start sender.message own
  let content := Node.onward ⟨.name "content", s₇, e₇⟩ (.keywordArgument "content") [message]
  let construction := Node.spanning .call
    [.mk (.identifier "HumanMessage") s₅ e₅ [], .mk .arguments s₆ e₉ [content]]
  let sent := Node.mk .arguments s₃ e₁₁ [.mk .list s₄ e₁₀ [construction]]
  let call := Node.spanning .call
    [.mk (.attribute "invoke") s₀ e₂ [.mk (.identifier "llm") s₀ e₀ []], sent]
  refine ⟨message, pieces, call, .mk .., fun tree covers => shown tree fun t mem => covers t ?_,
    fun rest closes => ?_⟩
  · exact List.mem_append_right _ (List.mem_append_left _ mem)
  · let behind₁ : List Token := ⟨.op ")", s₁₁, e₁₁⟩ :: rest
    let behind₂ : List Token := ⟨.op "]", s₁₀, e₁₀⟩ :: behind₁
    let behind₃ : List Token := ⟨.op ")", s₉, e₉⟩ :: behind₂
    have closes₁ : Closes behind₁ := closes_cons (by decide) ..
    have closes₂ : Closes behind₂ := closes_cons (by decide) ..
    have closes₃ : Closes behind₃ := closes_cons (by decide) ..
    have start : Starts (t :: (more ++ behind₃)) := ⟨t, _, rfl, not_mem_signs literal⟩
    have message_read : primary (Grammar.read (fuel + 6)) (t :: (more ++ behind₃)) =
        some (message, behind₃) :=
      primary_strings literal closes₃ (reads behind₃ rfl)
    have content_read : argument (Grammar.read (fuel + 10)) (⟨.name "content", s₇, e₇⟩ ::
        ⟨.op "=", s₈, e₈⟩ :: t :: (more ++ behind₃)) = some (content, behind₃) :=
      argument_keyword "content" (read_expr start closes₃ message_read)
    have construction_read : Grammar.read (fuel + 15) .named (⟨.name "HumanMessage", s₅, e₅⟩ ::
        ⟨.op "(", s₆, e₆⟩ :: ⟨.name "content", s₇, e₇⟩ :: ⟨.op "=", s₈, e₈⟩ ::
          t :: (more ++ behind₃)) = some (construction, behind₂) :=
      read_named (starts_cons (by decide) ..) closes₂ (primary_call "HumanMessage" closes₂
        (callArguments_one (starts_cons (by decide) ..) content_read))
    have list_read : list (Grammar.read (fuel + 15)) (⟨.op "[", s₄, e₄⟩ :: _) =
        some (.mk .list s₄ e₁₀ [construction], behind₁) :=
      list_one (starts_cons (by decide) ..) construction_read rfl
    have sent_read : callArguments (Grammar.read (fuel + 20)) (⟨.op "(", s₃, e₃⟩ :: _) =
        some (sent, rest) :=
      callArguments_one (starts_cons (by decide) ..) (argument_list
        (read_named (starts_cons (by decide) ..) closes₁ (primary_list closes₁ list_read)))
    have call_read : primary (Grammar.read (fuel + 20)) (⟨.name "llm", s₀, e₀⟩ ::
        ⟨.op ".", s₁, e₁⟩ :: ⟨.name "invoke", s₂, e₂⟩ :: _) = some (call, rest) :=
      primary_method "llm" "invoke" closes sent_read
    simpa only [List.append_assoc, List.cons_append, List.nil_append] using call_read

/-! The line. -/

/-- The statement that makes a call. -/
inductive UsageNode (call : Node) : Usage → Node → Prop
  | statement (s e : Nat) : UsageNode call .statement (.mk .expressionStatement s e [call])
  | result (s e : Nat) : UsageNode call .result (.mk .statement s e [call])
  | value (target : Identifier) (s e s' e' s₀ e₀ : Nat) :
    UsageNode call (.value target) (.mk .expressionStatement s e [
      .mk (.assignment false) s' e' [.mk (.identifier target.name) s₀ e₀ [], call]])

theorem read_usage {fuel : Nat} {call : Node} {ts : List Token} (usage : Usage)
    (first : ∃ s e rest, ts = ⟨.name "llm", s, e⟩ :: rest)
    (reads : ∀ rest, Closes rest → primary (read (fuel + 20)) (ts ++ rest) = some (call, rest))
    (isCall : call.kind = .call) {before : List Token} (h : before.map (·.kind) = usage.kinds)
    (s e : Nat) : ∃ statement, UsageNode call usage statement ∧ ∀ rest,
      read (fuel + 25) .line (before ++ (ts ++ ⟨.newline, s, e⟩ :: rest)) =
        some (.spanning .block [statement], rest) := by
  obtain ⟨s₀, e₀, inside, rfl⟩ := first
  have closes (rest : List Token) : Closes (⟨.newline, s, e⟩ :: rest) :=
    closes_cons (by decide) s e rest
  have start (rest : List Token) : Starts (⟨.name "llm", s₀, e₀⟩ :: inside ++ rest) :=
    starts_cons (by decide) s₀ e₀ (inside ++ rest)
  have read_call (rest : List Token) := read_expr (start _) (closes rest) (reads _ (closes rest))
  cases usage with
  | statement =>
      obtain rfl := List.map_eq_nil_iff.mp h
      refine ⟨.spanning .expressionStatement [call], .statement .., fun rest => ?_⟩
      have statement := simpleStatement_expression
        (expressionStatement_call (start _) (read_call rest) isCall)
      exact (line_of_simpleLine (compoundStatement_name (by decide) s₀ e₀)).trans
        (simpleLine_one statement)
  | result =>
      obtain ⟨⟨_, s₁, e₁⟩, _, rfl, rfl, done⟩ := List.map_eq_cons_iff.mp h
      obtain rfl := List.map_eq_nil_iff.mp done
      let token : Token := ⟨.keyword "return", s₁, e₁⟩
      refine ⟨.onward token .statement [call], .result .., fun rest => ?_⟩
      have statement := simpleStatement_return s₁ e₁
        (expressions_one (start _) rfl (read_call rest))
      exact (line_of_simpleLine rfl).trans (simpleLine_one statement)
  | value target =>
      obtain ⟨⟨_, s₁, e₁⟩, _, rfl, rfl, sign⟩ := List.map_eq_cons_iff.mp h
      obtain ⟨⟨_, s₂, e₂⟩, _, rfl, rfl, done⟩ := List.map_eq_cons_iff.mp sign
      obtain rfl := List.map_eq_nil_iff.mp done
      let named := Node.mk (.identifier target.name) s₁ e₁ []
      refine ⟨.spanning .expressionStatement [.spanning (.assignment false) [named, call]],
        .value .., fun rest => ?_⟩
      have read_target (more : List Token) : read (fuel + 24) .expr (⟨.name target.name, s₁, e₁⟩ ::
          ⟨.op "=", s₂, e₂⟩ :: more) = some (named, ⟨.op "=", s₂, e₂⟩ :: more) :=
        read_expr (starts_cons (by simp [signs]) ..) (closes_cons (by decide) ..)
          (primary_name target.name (closes_cons (by decide) ..))
      have statement := simpleStatement_expression
        (expressionStatement_value (start _) (read_target _) (read_call rest))
      exact (line_of_simpleLine (compoundStatement_target (fuel + 18) ..)).trans
        (simpleLine_one statement)

/-- The line of a handler: its message shows a text. -/
structure LineNode (tree : SourceTree) (text : List Char) (usage : Usage)
    (message : Node) (pieces : List Node) (statement : Node) : Prop where
  shows : Message tree text message pieces
  sends : ∃ call, CallNode message call ∧ UsageNode call usage statement

theorem read_line (fuel : Nat) (sender : Sender) {ts : List Token}
    (h : ts.map (·.kind) = sender.usage.kinds ++ sender.callKinds ++ [.newline]) :
    ∃ message pieces statement,
      (∀ tree, (∀ t ∈ ts, Covers tree.source t) → LineNode tree
        (sender.message.parts.flatMap Part.shown) sender.usage message pieces statement) ∧
      ∀ rest, read (fuel + 25) .line (ts ++ rest) = some (.spanning .block [statement], rest) := by
  rw [List.append_assoc] at h
  obtain ⟨before, _, rfl, usage_kinds, h⟩ := List.map_eq_append_iff.mp h
  obtain ⟨call_tokens, _, rfl, call_kinds, last⟩ := List.map_eq_append_iff.mp h
  obtain ⟨⟨_, s, e⟩, _, rfl, rfl, done⟩ := List.map_eq_cons_iff.mp last
  obtain rfl := List.map_eq_nil_iff.mp done
  have first : ∃ s e rest, call_tokens = ⟨.name "llm", s, e⟩ :: rest := by
    obtain ⟨⟨_, s, e⟩, rest, rfl, rfl, -⟩ := List.map_eq_cons_iff.mp call_kinds
    exact ⟨s, e, rest, rfl⟩
  obtain ⟨message, pieces, call, sends, shows, reads⟩ := read_call fuel sender call_kinds
  have isCall : call.kind = .call := by
    cases sends
    rfl
  obtain ⟨statement, good, line⟩ := read_usage sender.usage first reads isCall usage_kinds s e
  refine ⟨message, pieces, statement, fun tree covers => ⟨shows tree fun t mem => covers t ?_,
    call, sends, good⟩, fun rest => ?_⟩
  · exact List.mem_append_right _ (List.mem_append_left _ mem)
  · simpa only [List.append_assoc, List.cons_append, List.nil_append] using line rest

/-! The function. -/

/-- A handler with one parameter, over a statement with these ones above and below. -/
inductive HandlerNode (name : String) (above : List Node) (statement : Node) (below : List Node) :
    Node → Prop
  | mk (parameter : String) (s e s₁ e₁ s₂ e₂ s₃ e₃ : Nat) :
    HandlerNode name above statement below (.mk (.function name false) s e [
      .mk .parameters s₁ e₁ [.mk (.parameter parameter) s₂ e₂ []],
      .mk .block s₃ e₃ (above ++ statement :: below)])

theorem functionDefinition_sender {p : Goal → Parse Node} {ts rest : List Token}
    {statements : List Node} {dedent : Token} (ends : dedent.kind = .dedent)
    (reads : many1 (p .line) ts = some (statements, dedent :: rest)) (name parameter : String)
    (s₀ e₀ s₁ e₁ s₂ e₂ s₃ e₃ s₄ e₄ s₅ e₅ s₆ e₆ s₇ e₇ : Nat) :
    functionDefinition p none (⟨.keyword "def", s₀, e₀⟩ :: ⟨.name name, s₁, e₁⟩ ::
      ⟨.op "(", s₂, e₂⟩ :: ⟨.name parameter, s₃, e₃⟩ :: ⟨.op ")", s₄, e₄⟩ :: ⟨.op ":", s₅, e₅⟩ ::
      ⟨.newline, s₆, e₆⟩ :: ⟨.indent, s₇, e₇⟩ :: ts) =
        some (.onward ⟨.keyword "def", s₀, e₀⟩ (.function name false)
          [.mk .parameters s₂ e₄ [.mk (.parameter parameter) s₃ e₃ []], blockOf statements],
          rest) := by
  have body := suite_block ends reads s₅ e₅ s₆ e₆ s₇ e₇
  simp only [functionDefinition, bind_apply]
  change (suite p _).bind _ = _
  rw [body]
  rfl

/-- The tokens of the body are read as its lines. -/
theorem many1_sender (sender : Sender) {ts : List Token}
    (h : ts.map (·.kind) = blockKinds sender.lines) {fuel : Nat}
    (enough : Grammar.depth ts ≤ fuel + 25) {dedent : Token} (ends : dedent.kind = .dedent) :
    ∃ message pieces statement upper lower, Silent (upper.flatMap Node.children) ∧
      (∀ tree, (∀ t ∈ ts, Covers tree.source t) → LineNode tree
        (sender.message.parts.flatMap Part.shown) sender.usage message pieces statement) ∧
      many1 (read (fuel + 25) .line) (ts ++ [dedent]) =
        some (upper ++ .spanning .block [statement] :: lower, [dedent]) := by
  rw [Sender.lines, blockKinds, List.flatMap_append, List.flatMap_cons] at h
  obtain ⟨before, _, rfl, before_kinds, h⟩ := List.map_eq_append_iff.mp h
  obtain ⟨line, after, rfl, own, after_kinds⟩ := List.map_eq_append_iff.mp h
  simp only [Grammar.depth, List.length_append] at enough
  obtain ⟨message, pieces, statement, good, reads⟩ := read_line fuel sender own
  obtain ⟨upper, chain, silent⟩ := chain_bodyLines sender.above before_kinds
    (show Grammar.depth before ≤ fuel + 25 by rw [Grammar.depth]; omega)
  obtain ⟨lower, chain', -⟩ := chain_bodyLines sender.below after_kinds
    (show Grammar.depth after ≤ fuel + 25 by rw [Grammar.depth]; omega)
  refine ⟨message, pieces, statement, upper, lower, silent sender.silent, fun tree covers =>
    good tree fun t mem => covers t (by simp [mem]), ?_⟩
  have some_token : 0 < line.length := by
    have length := congrArg List.length own
    simp at length
    omega
  have shorter : (after ++ [dedent]).length < (line ++ (after ++ [dedent])).length := by
    simp only [List.length_append]
    omega
  have stops : read (fuel + 25) .line [dedent] = none :=
    read_line_continuing (by rw [ends]; decide) (fuel + 18) []
  have behind := chain' _ _ _ (.done stops)
  have whole := chain _ _ _ (.more (reads (after ++ [dedent])) shorter behind)
  rw [List.append_nil] at whole
  rw [List.append_assoc, List.append_assoc]
  cases upper with
  | nil => exact whole.many1
  | cons first upper => exact whole.many1

theorem file_sender (sender : Sender) {ts : List Token}
    (h : ts.map (·.kind) = sender.kinds ++ [.dedent]) :
    ∃ message pieces above statement below handler, Silent above ∧
      HandlerNode sender.name.name above statement below handler ∧
      (∀ tree, (∀ t ∈ ts, Covers tree.source t) → LineNode tree
        (sender.message.parts.flatMap Part.shown) sender.usage message pieces statement) ∧
      file ts = some (.spanning .file [handler]) := by
  obtain ⟨fuel, deep⟩ := Nat.exists_eq_add_of_le' (show 26 ≤ Grammar.depth ts by
    have length := congrArg List.length h
    simp [Sender.kinds, Sender.headKinds] at length
    rw [Grammar.depth]
    omega)
  simp only [Sender.kinds, Sender.headKinds, List.cons_append, List.nil_append,
    List.map_eq_cons_iff] at h
  obtain ⟨⟨_, s₀, e₀⟩, _, rfl, rfl, ⟨_, s₁, e₁⟩, _, rfl, rfl, ⟨_, s₂, e₂⟩, _, rfl, rfl,
    ⟨_, s₃, e₃⟩, _, rfl, rfl, ⟨_, s₄, e₄⟩, _, rfl, rfl, ⟨_, s₅, e₅⟩, _, rfl, rfl,
    ⟨_, s₆, e₆⟩, _, rfl, rfl, ⟨_, s₇, e₇⟩, body, rfl, rfl, h⟩ := h
  obtain ⟨lines, _, rfl, own, last⟩ := List.map_eq_append_iff.mp h
  obtain ⟨dedent, _, rfl, ends, last⟩ := List.map_eq_cons_iff.mp last
  obtain rfl := List.map_eq_nil_iff.mp last
  have enough : Grammar.depth lines ≤ fuel + 25 := by
    simp only [Grammar.depth, List.length_cons, List.length_append] at deep ⊢
    omega
  obtain ⟨message, pieces, statement, upper, lower, silent, good, body⟩ :=
    many1_sender sender own enough ends
  let statements := upper ++ .spanning .block [statement] :: lower
  let handler := Node.onward ⟨.keyword "def", s₀, e₀⟩ (.function sender.name.name false)
    [.mk .parameters s₂ e₄ [.mk (.parameter sender.parameter.name) s₃ e₃ []], blockOf statements]
  have whole : read (fuel + 26) .line _ = some (.spanning .block [handler], []) :=
    line_of_functionDefinition (functionDefinition_sender ends body sender.name.name
      sender.parameter.name s₀ e₀ s₁ e₁ s₂ e₂ s₃ e₃ s₄ e₄ s₅ e₅ s₆ e₆ s₇ e₇)
  have children : statements.flatMap Node.children =
      upper.flatMap Node.children ++ statement :: lower.flatMap Node.children := by
    rw [List.flatMap_append, List.flatMap_cons]
    rfl
  refine ⟨message, pieces, _, statement, lower.flatMap Node.children, handler, silent, ?_,
    fun tree covers => good tree fun t mem => covers t (by simp [mem]),
    file_eq_some_iff.mpr ⟨[.spanning .block [handler]], ?_, rfl⟩⟩
  · rw [show handler = Node.onward _ _ [_, .spanning .block (statements.flatMap Node.children)]
      from rfl, children]
    exact .mk ..
  · rw [deep]
    simp only [many, manyWithin, whole, read_line_nil]
    rfl

/-! What the handler sends. -/

theorem callsBelow_mk (tree : SourceTree) (kind : NodeKind) (other : kind ≠ .call) (s e : Nat)
    (children : List Node) : callsBelow tree [.mk kind s e children] = callsBelow tree children :=
  callsBelow_singleton tree other

/-- The calls of a line: the one that sends the message, and the one that makes it. -/
theorem CallNode.calls {message call : Node} (h : CallNode message call) (tree : SourceTree)
    (silent : callsBelow tree [message] = []) : ∃ sent made,
      callsBelow tree [call] = [sent, made] ∧ sent.method? = some invokeMethod ∧
      made.method? = none ∧ ∃ source e, sent.args = [.list source [e]] ∧
        messageText? e = (tree.lower message).renderedText? := by
  cases h with
  | mk s₀ e₀ s₁ e₁ s₂ e₂ s₃ e₃ s₄ e₄ s₅ e₅ s₆ e₆ s₇ e₇ s₈ e₈ =>
    let construction : Node := .mk .call s₅ e₅ [
      .mk (.identifier "HumanMessage") s₆ e₆ [],
      .mk .arguments s₇ e₇ [.mk (.keywordArgument "content") s₈ e₈ [message]]]
    obtain ⟨made, called, made_method, text⟩ : ∃ made, callAt? tree construction = some made ∧
        made.method? = none ∧
        messageText? (tree.lower construction) = (tree.lower message).renderedText? :=
      ⟨_, rfl, rfl, rfl⟩
    let list := Node.mk .arguments s₃ e₃ [.mk .list s₄ e₄ [construction]]
    let call := Node.mk .call s₀ e₀ [
      .mk (.attribute "invoke") s₁ e₁ [.mk (.identifier "llm") s₂ e₂ []], list]
    obtain ⟨sent, called', method, source, args⟩ : ∃ sent, callAt? tree call = some sent ∧
        sent.method? = some invokeMethod ∧
        ∃ source, sent.args = [.list source [tree.lower construction]] :=
      ⟨_, rfl, rfl, _, rfl⟩
    have arguments : callsBelow tree construction.children = [] := by
      change callsBelow tree
        [.mk .arguments s₇ e₇ [.mk (.keywordArgument "content") s₈ e₈ [message]]] = []
      rw [callsBelow_mk tree .arguments (by decide),
        callsBelow_mk tree (.keywordArgument "content") (by decide), silent]
    have below : callsBelow tree call.children = [made] := by
      have constructed : callsBelow tree [construction] = [made] := by
        rw [callsBelow_cons, called, arguments]
        rfl
      change callsBelow tree [.mk .arguments s₃ e₃ [.mk .list s₄ e₄ [construction]]] = _
      rw [callsBelow_mk tree .arguments (by decide), callsBelow_mk tree .list (by decide),
        constructed]
    refine ⟨sent, made, ?_, method, made_method, source, tree.lower construction, args, text⟩
    change callsBelow tree [call] = _
    rw [callsBelow_cons, called', below]
    rfl

/-- A statement over a call makes no other calls. -/
theorem UsageNode.calls {call statement : Node} {usage : Usage}
    (h : UsageNode call usage statement) (tree : SourceTree) :
    callsBelow tree [statement] = callsBelow tree [call] := by
  cases h with
  | statement => exact callsBelow_mk tree .expressionStatement (by decide) ..
  | result => exact callsBelow_mk tree .statement (by decide) ..
  | value =>
      rw [callsBelow_mk tree .expressionStatement (by decide),
        callsBelow_mk tree (.assignment false) (by decide)]
      rfl

theorem HandlerNode.calls {name : String} {above below : List Node} {statement handler : Node}
    (h : HandlerNode name above statement below handler) (tree : SourceTree) :
    tree.callsIn handler =
      callsBelow tree above ++ (callsBelow tree [statement] ++ callsBelow tree below) := by
  rw [callsIn_eq_callsBelow]
  cases h with
  | mk parameter s e s₁ e₁ s₂ e₂ s₃ e₃ =>
      rw [callsBelow_mk tree (.function name false) (by simp)]
      have body := callsBelow_mk tree .block (by decide) s₃ e₃ (above ++ ([statement] ++ below))
      rw [callsBelow_append, callsBelow_append] at body
      exact body

/-- The prompt of a handler is what its message shows, if nothing above it makes an invocation. -/
theorem prompt_eq {tree : SourceTree} {text : List Char} {usage : Usage} {name : String}
    {message statement handler : Node} {pieces above below : List Node}
    (line : LineNode tree text usage message pieces statement) (silent : Silent above)
    (node : HandlerNode name above statement below handler) :
    prompt tree handler = .ofList text := by
  obtain ⟨call, sends, stands⟩ := line.sends
  obtain ⟨sent, made, calls, method, -, source, e, args, messageText⟩ :=
    sends.calls tree line.shows.no_calls
  have quiet : (callsBelow tree above).filter (·.method? = some invokeMethod) = [] :=
    List.filter_eq_nil_iff.mpr fun call mem => by simpa using silent.calls tree call mem
  have found : invocations tree handler =
      sent :: (made :: callsBelow tree below).filter (·.method? = some invokeMethod) := by
    rw [invocations, node.calls, stands.calls, calls, List.filter_append, quiet, List.nil_append]
    exact List.filter_cons_of_pos (by simp [method])
  have shown : sent.args.findSome? (fun arg => (messagesIn arg).findSome? messageText?) =
      some (.ofList text) := by
    rw [args, List.findSome?_singleton, messagesIn, List.findSome?_singleton, messageText,
      line.shows.renderedText?]
  rw [prompt, found, List.findSome?_cons, shown]
  rfl

/-! At another place. -/

theorem HandlerNode.moved {name : String} {above below : List Node} {statement handler : Node}
    (h : HandlerNode name above statement below handler) (d : Nat) :
    HandlerNode name (above.map (Node.moved d)) (statement.moved d) (below.map (Node.moved d))
      (handler.moved d) := by
  cases h with
  | mk =>
      simp only [Node.moved, Node.movedList_eq_map, List.map_append, List.map_cons, List.map_nil]
      exact .mk ..

theorem LineNode.moved {tree tree' : SourceTree} {d : Nat}
    (same : ∀ node, tree'.text (node.moved d) = tree.text node) {text : List Char} {usage : Usage}
    {message statement : Node} {pieces : List Node}
    (line : LineNode tree text usage message pieces statement) :
    LineNode tree' text usage (message.moved d) (pieces.map (Node.moved d)) (statement.moved d) where
  shows := line.shows.moved same
  sends := by
    obtain ⟨call, sends, stands⟩ := line.sends
    refine ⟨call.moved d, ?_, ?_⟩
    · cases sends with
      | mk => exact .mk ..
    · cases stands with
      | statement => exact .statement ..
      | result => exact .result ..
      | value => exact .value ..

end AgentWorkbench.Extraction
