import AgentWorkbench.Proofs.Python.Seams

/-!
What a source imports. A simple statement is told by its tokens up to the end of its line or to a
semicolon; those of a statement are the same where the source stands above or below another one.
-/
namespace AgentWorkbench.Python

open Text Lexer

/-- The kinds of the first tokens that belong to one simple statement. -/
def statementKinds (ts : List Token) : List TokenKind :=
  (ts.map Token.kind).takeWhile fun kind => !kind.isBreak && kind != .op ";"

/-- The kinds of the tokens of the simple statement at a place. -/
def kindsAt (place : Nat) (ts : List Token) : List TokenKind :=
  statementKinds (ts.dropWhile fun t => t.kind.isBreak || decide (t.start < place))

/-- The modules that the tokens of an import name, each as the tokens of its name. -/
def importedModules : List TokenKind → List (List TokenKind)
  | .keyword "import" :: names =>
    (names.splitOn (.op ",")).map (·.takeWhile (· != .keyword "as"))
  | _ => []

/-- A string that is text: neither bytes nor a format string. -/
def NodeKind.isText : NodeKind → Bool
  | .string flags => !flags.bytes && !flags.format
  | _ => false

/-- A string that is a statement by itself, maybe written in several pieces. -/
def Node.IsDocstring (n : Node) : Prop :=
  n.kind = .expressionStatement ∧ n.children.length = 1 ∧ ∀ string ∈ n.children,
    string.kind.isText = true ∨
      string.kind = .concatenation ∧ ∀ piece ∈ string.children, piece.kind.isText = true

instance : DecidablePred Node.IsDocstring := fun n =>
  inferInstanceAs (Decidable (n.kind = .expressionStatement ∧ n.children.length = 1 ∧
    ∀ string ∈ n.children, string.kind.isText = true ∨
      string.kind = .concatenation ∧ ∀ piece ∈ string.children, piece.kind.isText = true))

namespace SourceTree

/-- The kinds of the tokens of a simple statement. -/
def statement (tree : SourceTree) (n : Node) : List TokenKind :=
  kindsAt n.start ((tokenize tree.source).getD [])

/-- A module is imported by this statement. -/
structure ImportedBy (tree : SourceTree) (module : String) (n : Node) : Prop where
  kind : n.kind = .statement
  named : [.name module] ∈ importedModules (tree.statement n)

/-- A module is imported by a statement of the top level. -/
def Imports (tree : SourceTree) (module : String) : Prop :=
  ∃ n ∈ tree.root.children, tree.ImportedBy module n

/-- An import from `__future__`. -/
def IsFutureImport (tree : SourceTree) (n : Node) : Prop :=
  [.keyword "from", .name "__future__", .keyword "import"] <+: tree.statement n

/-- A docstring, if there is one, and imports from `__future__`. -/
def IsPrologue (tree : SourceTree) : List Node → Prop
  | [] => True
  | n :: rest => (n.IsDocstring ∨ tree.IsFutureImport n) ∧ ∀ m ∈ rest, tree.IsFutureImport m

instance (tree : SourceTree) (module : String) : DecidablePred (tree.ImportedBy module) := fun n =>
  decidable_of_iff
    (n.kind = .statement ∧ [.name module] ∈ importedModules (tree.statement n))
    ⟨fun h => ⟨h.1, h.2⟩, fun h => ⟨h.kind, h.named⟩⟩

instance (tree : SourceTree) : DecidablePred tree.Imports := fun module =>
  inferInstanceAs (Decidable (∃ n ∈ tree.root.children, tree.ImportedBy module n))

instance (tree : SourceTree) : DecidablePred tree.IsFutureImport := fun n =>
  inferInstanceAs (Decidable
    ([.keyword "from", .name "__future__", .keyword "import"] <+: tree.statement n))

instance (tree : SourceTree) : DecidablePred tree.IsPrologue
  | [] => isTrue trivial
  | n :: rest => inferInstanceAs
      (Decidable ((n.IsDocstring ∨ tree.IsFutureImport n) ∧ ∀ m ∈ rest, tree.IsFutureImport m))

theorem ImportedBy.statement_ne_nil {tree : SourceTree} {module : String} {n : Node}
    (h : tree.ImportedBy module n) : tree.statement n ≠ [] := by
  intro empty
  have named := h.named
  rw [empty] at named
  exact absurd named List.not_mem_nil

theorem ImportedBy.of_statement {tree tree' : SourceTree} {module : String} {n n' : Node}
    (h : tree.ImportedBy module n) (kind : n'.kind = n.kind)
    (same : tree'.statement n' = tree.statement n) : tree'.ImportedBy module n' :=
  ⟨kind.trans h.kind, same ▸ h.named⟩

theorem IsFutureImport.statement_ne_nil {tree : SourceTree} {n : Node}
    (h : tree.IsFutureImport n) : tree.statement n ≠ [] := by
  intro empty
  rw [IsFutureImport, empty] at h
  exact absurd (List.prefix_nil.mp h) (List.cons_ne_nil _ _)

/-- A prologue stays one where its statements stay the same. -/
theorem IsPrologue.of_statement {tree tree' : SourceTree} {ns : List Node} (h : tree.IsPrologue ns)
    (same : ∀ n, tree.statement n ≠ [] → tree'.statement n = tree.statement n) :
    tree'.IsPrologue ns := by
  have future (n : Node) (h : tree.IsFutureImport n) : tree'.IsFutureImport n := by
    rw [IsFutureImport, same n h.statement_ne_nil]
    exact h
  cases ns with
  | nil => trivial
  | cons n rest => exact ⟨h.1.imp_right (future n), fun m mem => future m (h.2 m mem)⟩

end SourceTree

/-! Statements at two places. -/

section Places

variable {σ : Shift} {d place : Nat} {ts ts' us : List Token}

theorem statementKinds_alike (h : Alike σ d ts ts') (some_token : ts ≠ []) :
    statementKinds ts' = statementKinds ts := by
  induction h with
  | done => exact absurd rfl some_token
  | token _ twin ne _ ih =>
    simp only [statementKinds, List.map_cons, List.takeWhile_cons, twin.kind]
    have later := ih ne
    simp only [statementKinds] at later
    rw [later]
  | newline kind kind' | indent kind kind' | dedent kind kind' =>
    simp [statementKinds, kind, kind', TokenKind.isBreak]

theorem kindsAt_alike (h : Alike σ d ts ts') (some_kind : kindsAt place ts ≠ []) :
    kindsAt (place + σ.distance) ts' = kindsAt place ts := by
  induction h with
  | done => exact absurd rfl some_kind
  | @token depth t t' ts ts' plain twin ne alike ih =>
    have moved : t'.start = t.start + σ.distance := (twin.placed plain).start
    by_cases before : t.start < place
    · have dropped : kindsAt place (t :: ts) = kindsAt place ts := by simp [kindsAt, before]
      have dropped' : kindsAt (place + σ.distance) (t' :: ts') =
          kindsAt (place + σ.distance) ts' := by
        simp [kindsAt, moved, before]
      rw [dropped, dropped', ih (dropped ▸ some_kind)]
    · simpa [kindsAt, plain, twin.kind, moved, before] using
        statementKinds_alike (.token plain twin ne alike) (List.cons_ne_nil t ts)
  | newline kind kind' _ ih | indent kind kind' _ ih | dedent kind kind' _ ih =>
    simpa [kindsAt, kind, kind', TokenKind.isBreak] using
      ih (by simpa [kindsAt, kind, TokenKind.isBreak] using some_kind)

end Places

/-! Statements of two sources, one above the other. -/

namespace Seam

variable {front more : List Char} {tree front_tree more_tree : SourceTree} {n : Node}

/-- The tokens of the whole are those of the two sides. -/
theorem tokens (h : Seam front more front_tree more_tree)
    (parsed : SourceTree.parse? (front ++ more) = some tree) :
    ∃ ts us, tokenize front_tree.source = some ts ∧ tokenize more_tree.source = some us ∧
      Fresh us ∧ front_tree.source = front ∧
      tokenize tree.source = some (ts ++ us.map (Token.moved front.length)) := by
  obtain ⟨ts, s, settled⟩ := h.settled
  have joins := settled.joins (.inr (.inr h.unmarked))
  obtain ⟨us, tokens, file, source⟩ := parse?_eq_some.mp h.more_parsed
  have front_source := source_of_parse? h.front_parsed
  have tree_source := source_of_parse? parsed
  refine ⟨ts, us, front_source ▸ settled.tokenize, source ▸ tokens, Grammar.fresh_of_file file,
    front_source, ?_⟩
  rw [tree_source, joins.joined, tokens, Option.map_some]

end Seam

/-- A line break more at the end of a source changes no statement. -/
theorem SourceTree.statement_break {cs : List Char} {tree tree' : SourceTree} {n : Node}
    (parsed : SourceTree.parse? cs = some tree)
    (parsed' : SourceTree.parse? (cs ++ ['\n']) = some tree') (some_kind : tree.statement n ≠ []) :
    tree'.statement n = tree.statement n := by
  obtain ⟨ts, tokens, -, rfl⟩ := parse?_eq_some.mp parsed
  obtain ⟨ts', -, -, tokens', alike, -⟩ := tokenize_break tokens
  rw [statement, tokens] at some_kind
  rw [statement, statement, source_of_parse? parsed', tokens, tokens']
  exact kindsAt_alike alike some_kind

end AgentWorkbench.Python
