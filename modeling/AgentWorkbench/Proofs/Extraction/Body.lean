import AgentWorkbench.Proofs.Extraction.BuilderTree
import AgentWorkbench.Proofs.Python.Calls
import AgentWorkbench.Proofs.Python.Joining
import AgentWorkbench.Proofs.Python.Names

/-!
The body of a handler, line by line. Each line is read by itself, whatever the line before it, and
the first one opens the block of the body.
-/
namespace AgentWorkbench.Extraction

open Python Python.Grammar Python.Parse Python.Lexer Text

/-- Behind the last token of a line inside one block. -/
def inBlock (width column : Nat) (last : List TokenKind) : LexState :=
  within [width, 0] column [] last

/-- Behind a line of a block. -/
def lineStart (width : Nat) (last : List TokenKind) : LexState :=
  { blocks := [width, 0], last := .newline :: last }

/-- A text that is read inside a line of a block, up to the end of the line. -/
structure InLine (text : List Char) (kinds : List TokenKind) : Prop where
  starts : StartsToken text
  passes (width : Nat) (last : List TokenKind) (rest : List Char) : ∃ column last',
    Passes (inBlock width width last) (text ++ '\n' :: rest) kinds
      (inBlock width column last') ('\n' :: rest)

/-- In this state the tokens of these kinds open a line of a block. -/
structure Opens (width : Nat) (s : LexState) (kinds : List TokenKind) : Prop where
  outside : s.contexts = []
  column : s.column = 0
  opens (pos : Nat) : ∃ ts, opening { s with column := width } pos =
    (ts, inBlock width width s.last) ∧ ts.map (·.kind) = kinds

section Lines

variable {width : Nat} {s s' : LexState} {c : Char} {cs rest : List Char}
  {opened kinds : List TokenKind}

theorem opens_atBlock (inside : 0 < width) : Opens width atBlock [.indent] where
  outside := rfl
  column := rfl
  opens pos := ⟨[⟨.indent, pos, pos⟩],
    by simp [opening, openLine, atBlock, inBlock, within, inside], rfl⟩

theorem opens_lineStart (width : Nat) (last : List TokenKind) :
    Opens width (lineStart width last) [] where
  outside := rfl
  column := rfl
  opens pos := ⟨[], by simp [opening, openLine, lineStart, inBlock, within, closeBlocks], rfl⟩

/-- The first step of a line is that inside the line, with the tokens that open it. -/
theorem Opens.steps (h : Opens width s opened) (start : c ∉ passedOver)
    (inside : Steps (inBlock width width s.last) (c :: cs) kinds s' rest) :
    Steps { s with column := width } (c :: cs) (opened ++ kinds) s' rest := by
  refine ⟨inside.shorter, fun pos => ?_⟩
  obtain ⟨lexed, step_eq, rfl, rfl, rfl⟩ := inside.step_eq pos
  obtain ⟨ts, opens, rfl⟩ := h.opens pos
  simp only [passedOver, List.mem_cons, List.not_mem_nil, or_false, not_or] at start
  obtain ⟨break_, escape, comment, blank, tab, return_, feed, mark⟩ := start
  have plain (s : LexState) (outside : s.contexts = []) : step s pos (c :: cs) =
      (token? (opening s pos).2 pos (c :: cs)).map fun lexed =>
        { lexed with tokens := (opening s pos).1 ++ lexed.tokens } := by
    rw [step_outside outside, codeStep_plain break_ escape comment, if_neg blank, if_neg tab,
      if_neg (not_or.mpr ⟨return_, feed⟩), if_neg fun h => mark h.1]
  rw [plain _ rfl] at step_eq
  obtain ⟨found, token, rfl⟩ := Option.map_eq_some_iff.mp step_eq
  refine ⟨{ found with tokens := ts ++ found.tokens }, ?_, by simp [opening, inBlock, within], rfl,
    rfl⟩
  have inLine : token? (inBlock width width s.last) pos (c :: cs) = some found := token
  rw [plain { s with column := width } h.outside, opens, inLine]
  rfl

theorem Opens.passes (h : Opens width s opened) (start : c ∉ passedOver)
    (inside : Passes (inBlock width width s.last) (c :: cs) kinds s' rest)
    (shorter : rest.length < (c :: cs).length) :
    Passes { s with column := width } (c :: cs) (opened ++ kinds) s' rest := by
  cases inside with
  | done => exact absurd shorter (Nat.lt_irrefl _)
  | step first later =>
      rw [← List.append_assoc]
      exact .step (h.steps start first) later

/-- A line is passed to the next one. -/
theorem InLine.passes_line {indent : Indent} {text : List Char} (line : InLine text kinds)
    (h : Opens indent.width s opened) (rest : List Char) : ∃ last,
      Passes s (indent.blanks ++ (text ++ '\n' :: rest)) (opened ++ (kinds ++ [.newline]))
        (lineStart indent.width last) rest := by
  obtain ⟨column, last, inside⟩ := line.passes indent.width s.last rest
  obtain ⟨c, cs, rfl, start⟩ := line.starts
  have blanks := passes_blanks h.outside indent.blank (c :: cs ++ '\n' :: rest)
  rw [h.column, Nat.zero_add, ← Indent.width] at blanks
  have shorter : ('\n' :: rest).length < (c :: (cs ++ '\n' :: rest)).length := by
    simp only [List.length_cons, List.length_append]
    omega
  have opened := h.passes start inside shorter
  have ended : Steps (inBlock indent.width column last) ('\n' :: rest) [.newline]
      (lineStart indent.width (last.take 1)) rest :=
    ⟨Nat.lt_succ_self _, fun pos => ⟨_, rfl, rfl, rfl, rfl⟩⟩
  refine ⟨last.take 1, ?_⟩
  have passed := blanks.trans (opened.trans ended.passes)
  simpa using passed

end Lines

/-! Blocks. -/

def blockText (indent : Indent) (lines : List (List Char × List TokenKind)) : List Char :=
  lines.flatMap fun line => indent.blanks ++ (line.1 ++ ['\n'])

def blockKinds (lines : List (List Char × List TokenKind)) : List TokenKind :=
  lines.flatMap fun line => line.2 ++ [.newline]

theorem wholeLines_blockText (indent : Indent) (lines : List (List Char × List TokenKind)) :
    WholeLines (blockText indent lines) := by
  induction lines with
  | nil => exact nofun
  | cons line lines ih =>
      rw [blockText, List.flatMap_cons, ← List.append_assoc]
      exact (WholeLines.append_break _).append ih

theorem passes_blockLines (indent : Indent) {lines : List (List Char × List TokenKind)}
    (h : ∀ line ∈ lines, InLine line.1 line.2) (last : List TokenKind) (rest : List Char) :
    ∃ last', Passes (lineStart indent.width last) (blockText indent lines ++ rest)
      (blockKinds lines) (lineStart indent.width last') rest := by
  induction lines generalizing last with
  | nil => exact ⟨last, .done⟩
  | cons line lines ih =>
      obtain ⟨here, later⟩ := List.forall_mem_cons.mp h
      obtain ⟨last₁, first⟩ := here.passes_line (opens_lineStart indent.width last)
        (blockText indent lines ++ rest)
      obtain ⟨last₂, more⟩ := ih later last₁
      refine ⟨last₂, ?_⟩
      simpa [blockText, blockKinds] using first.trans more

/-- The lines of a block are passed, from the line before the block. -/
theorem passes_block (indent : Indent) {line : List Char × List TokenKind}
    {lines : List (List Char × List TokenKind)} (first : InLine line.1 line.2)
    (h : ∀ line ∈ lines, InLine line.1 line.2) (rest : List Char) :
    ∃ last, Passes atBlock (blockText indent (line :: lines) ++ rest)
      (.indent :: blockKinds (line :: lines)) (lineStart indent.width last) rest := by
  obtain ⟨last₁, here⟩ := first.passes_line (opens_atBlock indent.width_pos)
    (blockText indent lines ++ rest)
  obtain ⟨last₂, more⟩ := passes_blockLines indent h last₁ rest
  refine ⟨last₂, ?_⟩
  simpa [blockText, blockKinds] using here.trans more

/-- Wherever these nodes stand, no call below them is an invocation. -/
def Silent (nodes : List Node) : Prop :=
  ∀ (tree : SourceTree) (d : Nat), ∀ call ∈ callsBelow tree (nodes.map (Node.moved d)),
    call.method? ≠ some invokeMethod

theorem Silent.nil : Silent [] := nofun

theorem Silent.append {nodes more : List Node} (h : Silent nodes) (h' : Silent more) :
    Silent (nodes ++ more) := by
  intro tree d call mem
  rw [List.map_append, callsBelow_append, List.mem_append] at mem
  exact mem.elim (h tree d call) (h' tree d call)

theorem Silent.moved {nodes : List Node} (h : Silent nodes) (d : Nat) :
    Silent (nodes.map (Node.moved d)) := by
  intro tree e
  rw [List.map_map, show Node.moved e ∘ Node.moved d = Node.moved (d + e) from
    funext (Node.moved_moved d e)]
  exact h tree (d + e)

theorem Silent.calls {nodes : List Node} (h : Silent nodes) (tree : SourceTree) :
    ∀ call ∈ callsBelow tree nodes, call.method? ≠ some invokeMethod := by
  have here := h tree 0
  rwa [Node.map_moved_zero] at here

/-- The tokens of a line are read as a node, whatever follows them. -/
def ReadAs (ts : List Token) (node : Node) : Prop :=
  ∀ fuel, Grammar.depth ts ≤ fuel → ∀ rest, read fuel .line (ts ++ rest) = some (node, rest)

/-- A line of a body that may stand beside the one that sends a message. -/
structure BodyLine where
  text : List Char
  kinds : List TokenKind
  inLine : InLine text kinds
  reads (ts : List Token) : ts.map (·.kind) = kinds ++ [.newline] → ∃ node, ReadAs ts node

namespace BodyLine

def pair (line : BodyLine) : List Char × List TokenKind := (line.text, line.kinds)

/-- No statement of the line makes an invocation. -/
def Silent (line : BodyLine) : Prop :=
  ∀ ts node, ts.map (·.kind) = line.kinds ++ [.newline] → ReadAs ts node →
    Extraction.Silent node.children

end BodyLine

/-- The tokens of some lines are read as nodes, before those of the lines behind them. -/
theorem chain_bodyLines (lines : List BodyLine) {ts : List Token}
    (h : ts.map (·.kind) = blockKinds (lines.map BodyLine.pair)) {fuel : Nat}
    (enough : Grammar.depth ts ≤ fuel) : ∃ nodes,
      (∀ us as rest, Chain (read fuel .line) us as rest →
        Chain (read fuel .line) (ts ++ us) (nodes ++ as) rest) ∧
      ((∀ line ∈ lines, line.Silent) → Silent (nodes.flatMap Node.children)) := by
  induction lines generalizing ts with
  | nil =>
      obtain rfl := List.map_eq_nil_iff.mp h
      exact ⟨[], fun _ _ _ later => later, fun _ => .nil⟩
  | cons line lines ih =>
      obtain ⟨own, more, rfl, own_kinds, later⟩ := List.map_eq_append_iff.mp h
      have some_token : 0 < own.length := by
        rw [← List.length_map, own_kinds]
        simp [BodyLine.pair]
      simp only [Grammar.depth, List.length_append] at enough
      obtain ⟨node, reads⟩ := line.reads own own_kinds
      have behind : Grammar.depth more ≤ fuel := by
        rw [Grammar.depth]
        omega
      obtain ⟨nodes, chain, silent⟩ := ih later behind
      refine ⟨node :: nodes, fun us as rest tail => ?_, fun quiet => ?_⟩
      · rw [List.append_assoc]
        refine .more (reads fuel (by rw [Grammar.depth]; omega) _) ?_ (chain us as rest tail)
        simp only [List.length_append]
        omega
      · obtain ⟨here, others⟩ := List.forall_mem_cons.mp quiet
        exact (here own node own_kinds reads).append (silent others)

/-! A line that gives one name the value of another. -/

theorem inLine_assignment (target value : Identifier) :
    InLine (target.chars ++ " = ".toList ++ value.chars)
      [.name target.name, .op "=", .name value.name] where
  starts := by
    refine ⟨target.first, _, rfl, fun mem => absurd target.starts ?_⟩
    simp [isIdentStart_passedOver target.first mem]
  passes width last rest := by
    let name := TokenKind.name target.name
    let behind (column : Nat) (last : List TokenKind) := inBlock width (width + column) last
    let more := value.chars ++ '\n' :: rest
    obtain ⟨c, cs, start, spelled⟩ : ∃ c cs, isIdentStart c = true ∧ more = c :: cs :=
      ⟨value.first, _, value.starts, rfl⟩
    have first : Steps (behind 0 last) (target.chars ++ (" = ".toList ++ more)) [name]
        (behind 0 (name :: last.take 1)) (" = ".toList ++ more) :=
      steps_word (fun _ _ => rfl) (fun _ => rfl) target (by constructor <;> decide) _
    have blank : Steps (behind 0 (name :: last.take 1)) (" = ".toList ++ more) []
        (behind 1 (name :: last.take 1)) ("= ".toList ++ more) :=
      ⟨by simp, fun pos => ⟨_, rfl, rfl, rfl, rfl⟩⟩
    have equals : Steps (behind 1 (name :: last.take 1)) ("= ".toList ++ more) [.op "="]
        (behind 1 [.op "=", name]) (" ".toList ++ more) :=
      ⟨by simp, fun pos => ⟨_, rfl, rfl, rfl, rfl⟩⟩
    have blank' : Steps (behind 1 [.op "=", name]) (" ".toList ++ more) []
        (behind 2 [.op "=", name]) more :=
      ⟨by simp, fun pos => ⟨_, rfl, rfl, rfl, rfl⟩⟩
    have second : Steps (behind 2 [.op "=", name]) (value.chars ++ '\n' :: rest)
        [.name value.name] (behind 2 [.name value.name, .op "="]) ('\n' :: rest) :=
      steps_word (fun _ _ => rfl) (fun _ => rfl) value (by constructor <;> decide) _
    have text : target.chars ++ " = ".toList ++ value.chars ++ '\n' :: rest =
        target.chars ++ (" = ".toList ++ more) := by
      simp [more]
    rw [text]
    exact ⟨_, _, first.passes.trans (blank.passes.trans (equals.passes.trans
      (blank'.passes.trans second.passes)))⟩

def assignmentNode (target value : String) (s e s' e' : Nat) : Node :=
  .spanning .block [.spanning .expressionStatement [.spanning (.assignment false)
    [.mk (.identifier target) s e [], .mk (.identifier value) s' e' []]]]

theorem read_assignment (fuel : Nat) (target value : String)
    (s₀ e₀ s₁ e₁ s₂ e₂ s₃ e₃ : Nat) (rest : List Token) :
    read (fuel + 7) .line (⟨.name target, s₀, e₀⟩ :: ⟨.op "=", s₁, e₁⟩ :: ⟨.name value, s₂, e₂⟩ ::
      ⟨.newline, s₃, e₃⟩ :: rest) = some (assignmentNode target value s₀ e₀ s₂ e₂, rest) := by
  have read_name (name : String) (s e : Nat) {ts : List Token} (closes : Closes ts) :
      read (fuel + 6) .expr (⟨.name name, s, e⟩ :: ts) = some (.mk (.identifier name) s e [], ts) :=
    read_expr (starts_cons (by simp [signs]) ..) closes (primary_name name closes)
  have first := read_name target s₀ e₀
    (closes_cons (show .op "=" ∈ closers by decide) s₁ e₁
      (⟨.name value, s₂, e₂⟩ :: ⟨.newline, s₃, e₃⟩ :: rest))
  have second := read_name value s₂ e₂
    (closes_cons (show .newline ∈ closers by decide) s₃ e₃ rest)
  have statement := simpleStatement_expression
    (expressionStatement_value (starts_cons (by simp [signs]) ..) first second)
  exact (line_of_simpleLine (compoundStatement_target fuel ..)).trans (simpleLine_one statement)

/-- The line that gives one name the value of another. -/
def BodyLine.assignment (target value : Identifier) : BodyLine where
  text := target.chars ++ " = ".toList ++ value.chars
  kinds := [.name target.name, .op "=", .name value.name]
  inLine := inLine_assignment target value
  reads ts h := by
    simp only [List.cons_append, List.nil_append, List.map_eq_cons_iff, List.map_eq_nil_iff] at h
    obtain ⟨⟨_, s₀, e₀⟩, _, rfl, rfl, ⟨_, s₁, e₁⟩, _, rfl, rfl, ⟨_, s₂, e₂⟩, _, rfl, rfl,
      ⟨_, s₃, e₃⟩, _, rfl, rfl, rfl⟩ := h
    refine ⟨assignmentNode target.name value.name s₀ e₀ s₂ e₂, fun fuel enough rest => ?_⟩
    obtain ⟨fuel, rfl⟩ := Nat.exists_eq_add_of_le' (Nat.le_trans (by decide : 7 ≤ 48) enough)
    exact read_assignment fuel target.name value.name ..

theorem BodyLine.silent_assignment (target value : Identifier) :
    (BodyLine.assignment target value).Silent := by
  intro ts node h reads
  simp only [BodyLine.assignment, List.cons_append, List.nil_append, List.map_eq_cons_iff,
    List.map_eq_nil_iff] at h
  obtain ⟨⟨_, s₀, e₀⟩, _, rfl, rfl, ⟨_, s₁, e₁⟩, _, rfl, rfl, ⟨_, s₂, e₂⟩, _, rfl, rfl,
    ⟨_, s₃, e₃⟩, _, rfl, rfl, rfl⟩ := h
  have same := (reads 48 (Nat.le_refl 48) []).symm.trans
    (read_assignment 41 target.name value.name s₀ e₀ s₁ e₁ s₂ e₂ s₃ e₃ [])
  obtain rfl := (Prod.mk.inj (Option.some.inj same)).1
  exact fun tree d call mem => absurd mem List.not_mem_nil

end AgentWorkbench.Extraction
