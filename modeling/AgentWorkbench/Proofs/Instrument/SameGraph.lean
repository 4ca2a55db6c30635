import AgentWorkbench.Proofs.Extraction.Mentions
import AgentWorkbench.Proofs.Instrument.Decorators
import AgentWorkbench.Proofs.Instrument.HookPlace
import AgentWorkbench.Proofs.Instrument.Prologue

/-!
The graph of an instrumented source. Each of the three steps is an edit that leaves the graph as it
is, if what it inserts comes to a place where it is a statement of its own.
-/
namespace AgentWorkbench.Instrument

open Text Python Lexer Grammar Extraction

/-- The name of the function that the routine defines. -/
def routineName : String := "extract_graph"

variable {source : List Char} {tree : SourceTree}

/-- What is taken for the prologue is a source by itself, and so is the rest. -/
def ImportsPlace (source : List Char) : Prop :=
  ∀ i, importsInsertion? source = some i → ∃ front_tree more_tree,
    Seam (i.before ++ closingBreak i.before) i.after front_tree more_tree

/-- The three steps insert statements of their own. -/
structure Placed (source : List Char) : Prop where
  imports : ImportsPlace source
  routine : RoutinePlace (injectImports source)
  hook : HookPlace (injectRoutine (injectImports source))

theorem edited_injectImports (parsed : SourceTree.parse? source = some tree)
    (place : ImportsPlace source) : ∃ tree', SourceTree.parse? (injectImports source) = some tree' ∧
      Edited tree tree' routineName tree.root.children tree'.root.children := by
  cases made : importsInsertion? source with
  | none =>
    refine ⟨tree, ?_, .of_inserted (.nil tree) nofun⟩
    rw [injectImports, made]
    exact parsed
  | some i =>
    obtain ⟨front_tree, more_tree, seam⟩ := place i made
    obtain ⟨tree', block_tree, parsed', -, imported, inserted⟩ :=
      parse?_injectImports made parsed seam
    refine ⟨tree', parsed', .of_inserted inserted fun n mem => ?_⟩
    obtain ⟨m, inside, rfl⟩ := List.mem_map.mp mem
    exact (Unheeded.statement (imported.plain m inside).1).moved _

theorem edited_injectRoutine (parsed : SourceTree.parse? source = some tree)
    (place : RoutinePlace source) : ∃ tree', SourceTree.parse? (injectRoutine source) = some tree' ∧
      Edited tree tree' routineName tree.root.children tree'.root.children := by
  cases held : contains routineSignature.toList source with
  | true =>
    refine ⟨tree, ?_, .of_inserted (.nil tree) nofun⟩
    rw [injectRoutine_eq_self held]
    exact parsed
  | false =>
    obtain ⟨tree', function, above, below, d, parsed', kind, inserted⟩ :=
      parse?_injectRoutine parsed held place
    refine ⟨tree', parsed', .of_inserted inserted fun n mem => ?_⟩
    obtain rfl := List.mem_singleton.mp mem
    exact .function kind

theorem builderName_ne_routineName : builderName ≠ routineName := by decide

theorem extract?_of_parse {source : String} (parsed : SourceTree.parse? source.toList = some tree) :
    extract? source = graphOf tree := by
  rw [extract?, parsed]

/-! Sources cut at the places of the imports and of the routine. -/

/-- A source cut at two places, with the imports that come to stand at the first one. -/
structure Cut where
  prologue : List Char
  added : List Char
  between : List Char
  below : List Char

namespace Cut

variable (c : Cut)

def whole : List Char := c.prologue ++ (c.between ++ c.below)

/-- What stands above the routine. -/
def head : List Char := c.prologue ++ (c.added ++ c.between)

def withRoutine : List Char := c.head ++ (routine.toList ++ ['\n', '\n']) ++ c.below

/-- The insertions find the places of the cut. -/
structure Fits : Prop where
  imports : importsInsertion? c.whole = some ⟨c.prologue, c.added, c.between ++ c.below⟩
  missing : contains routineSignature.toList (c.head ++ c.below) = false
  line : routineLine? (pieces (c.head ++ c.below)) = some (pieces c.head).length
  above : ((pieces (c.head ++ c.below)).take (pieces c.head).length).flatten = c.head

variable {c}

namespace Fits

theorem injectImports (h : c.Fits) : Instrument.injectImports c.whole = c.head ++ c.below := by
  rw [Instrument.injectImports, h.imports, insertOr, Option.map_some, Option.getD_some,
    Insertion.text]
  simp only [head, List.append_assoc]

theorem injectRoutine (h : c.Fits) :
    Instrument.injectRoutine (c.head ++ c.below) = c.withRoutine := by
  have lines := flatten_pieces (c.head ++ c.below)
  rw [← List.take_append_drop (pieces c.head).length (pieces (c.head ++ c.below)),
    List.flatten_append, h.above, List.append_cancel_left_eq] at lines
  simp only [Instrument.injectRoutine, routineInsertion?, h.missing, Bool.false_eq_true, if_false,
    h.line, h.above, lines, insertOr, Option.map_some, Option.getD_some, Insertion.text,
    withRoutine]

theorem toList_instrument (h : c.Fits) {source : String} (text : source.toList = c.whole) :
    (instrument source).toList = injectHook c.withRoutine := by
  rw [instrument, String.toList_ofList, text, h.injectImports, h.injectRoutine]

theorem placed (h : c.Fits) {front_tree more_tree : SourceTree}
    (seam : Seam (c.prologue ++ closingBreak c.prologue) (c.between ++ c.below) front_tree
      more_tree) (alone : StandsAlone c.head) (hook : HookPlace c.withRoutine) :
    Placed c.whole := by
  refine ⟨fun i found => ?_, ?_, ?_⟩
  · obtain rfl := Option.some.inj (h.imports.symm.trans found)
    exact ⟨front_tree, more_tree, seam⟩
  · rw [h.injectImports]
    intro n found
    obtain rfl := Option.some.inj (h.line.symm.trans found)
    rwa [h.above]
  · rwa [h.injectImports, h.injectRoutine]

end Fits

end Cut

set_option maxRecDepth 100000 in
theorem passedOver_routine : PassedOver routine.toList := by
  have free : ∃ lines, Spelled routineLines lines ∧
      ∀ line ∈ lines, '\n' ∉ line ∧ guardFree line = true := by
    apply Exists.intro
    apply And.intro
    · dsimp only [routineLines]
      repeat' first | exact .nil | apply Spelled.text | apply Spelled.parts
    · decide +kernel
  obtain ⟨lines, spelled, free⟩ := free
  rw [toList_routine]
  exact .of_lines (spelled.map_toList ▸ free)

theorem passedOver_breaks : PassedOver ['\n', '\n'] := ⟨[[], []], rfl, by decide⟩

/-- A guard below the routine and a source. -/
theorem GuardedBlock.hookPlace_below_routine (g : GuardedBlock) {head functions : List Char}
    {tree : SourceTree} (free : PassedOver head) (free' : PassedOver functions)
    (alone : StandsAlone head) (start : StartsToken functions)
    (parsed : SourceTree.parse? functions = some tree) :
    HookPlace (head ++ (routine.toList ++ ['\n', '\n']) ++ (functions ++ '\n' :: g.text)) := by
  obtain ⟨_, _, parsed_routine, -, -⟩ := parse?_routine
  have starts := startsToken_routine []
  rw [List.append_nil] at starts
  obtain ⟨⟨_, behind⟩, -⟩ := alone.append_break starts parsed_routine
  have above := (standsAlone_break behind).append_break start parsed
  have last : PassedOver ['\n'] := ⟨[[]], rfl, by decide⟩
  have place := g.hookPlace
    ((free.append (passedOver_routine.append passedOver_breaks)).append (free'.append last))
    (by simpa only [List.append_assoc, List.singleton_append] using above)
  rwa [List.append_cons functions, ← List.append_assoc]

/-- The graph of a text by the names of its nodes, as it is computed. -/
theorem exists_graph {source : String} {text : List Char} (spelled : source.toList = text)
    (names : List String) (read : (SourceTree.parse? text).any fun tree =>
      (graphOf tree).toOption.any fun g => g.nodes.map (·.id) == names) :
    ∃ tree g, SourceTree.parse? source.toList = some tree ∧ extract? source = .ok g ∧
      g.nodes.map (·.id) = names := by
  obtain ⟨tree, parsed, read⟩ := (Option.any_eq_true _ _).mp read
  rw [← spelled] at parsed
  rw [extract?_of_parse parsed]
  cases found : graphOf tree with
  | error e =>
    rw [found] at read
    exact absurd read Bool.false_ne_true
  | ok g =>
    rw [found] at read
    exact ⟨tree, g, parsed, rfl, beq_iff_eq.mp read⟩

/-! The three steps together. -/

/-- An instrumented source has the graph of the source, or the same error, perhaps with another
line. -/
theorem instrument_keeps_graph {source : String}
    (parsed : SourceTree.parse? source.toList = some tree)
    (absent : contains routineName.toList source.toList = false) (placed : Placed source.toList) :
    (∃ tree', SourceTree.parse? (instrument source).toList = some tree') ∧
      (extract? (instrument source) = extract? source ∨ ∃ registration line line' got,
        extract? (instrument source) = .error (.missingArgument registration line got) ∧
          extract? source = .error (.missingArgument registration line' got)) := by
  obtain ⟨tree₁, parsed₁, edited₁⟩ := edited_injectImports parsed placed.imports
  obtain ⟨tree₂, parsed₂, edited₂⟩ := edited_injectRoutine parsed₁ placed.routine
  obtain ⟨tree₃, parsed₃, edited₃⟩ := parse?_injectHook parsed₂ placed.hook
  -- Nothing in the source has the name of the routine, so no search by name meets it.
  have unnamed : Unnamed routineName tree := .of_absent parsed absent
  have apart := builderName_ne_routineName
  have unnamed₁ := edited₁.unnamed apart unnamed
  have unnamed₂ := edited₂.unnamed apart unnamed₁
  have same := (edited₃.graphOf apart unnamed₂).trans
    ((edited₂.graphOf apart unnamed₁).trans (edited₁.graphOf apart unnamed))
  have text : (instrument source).toList =
      injectHook (injectRoutine (injectImports source.toList)) := String.toList_ofList
  rw [← text] at parsed₃
  rw [extract?_of_parse parsed, extract?_of_parse parsed₃]
  exact ⟨⟨tree₃, parsed₃⟩, same.eq_or⟩

/-! A program with all three places. -/

def linesText (lines : List String) : List Char := lines.flatMap (·.toList ++ ['\n'])

def greeterFunctions : List Char := linesText [
  "@traced",
  "def greet(state):",
  "    return state",
  "",
  "",
  "def create_agent():",
  "    graph = StateGraph(dict)",
  "    graph.add_node(\"greet\", greet)",
  "    graph.add_edge(\"greet\", END)",
  "    return graph",
  ""]

/-- The guard has a comment behind its colon and an empty line above its block. -/
def greeterGuard : GuardedBlock where
  gap₁ := [' ']
  gap₂ := [' ']
  gap₃ := [' ']
  gap₄ := []
  spaced := by simp [spaces]
  apart := by decide
  quote := '"'
  isQuote := .inl rfl
  remark := {
    blanks := [' ', ' ']
    comment := some " run".toList
    blank := by simp [spaces]
    legal := by
      rintro _ ⟨⟩
      exact List.all_iff_forall_prop.mp (by decide) }
  bare := [.empty]
  indent := ⟨[' ', ' ', ' ', ' '], by simp, by simp⟩
  first := 'p'
  rest := "rint(create_agent())\n".toList
  token := by decide
  solid := by decide

def greeter : Cut where
  prologue := linesText ["\"\"\"Greets.\"\"\""]
  added := linesText ["import ast"]
  between := linesText ["", "import json", "", ""]
  below := greeterFunctions ++ '\n' :: greeterGuard.text

def greeterSource : String := String.ofList greeter.whole

theorem greeterSource_keeps_graph : ∃ g, extract? greeterSource = .ok g ∧
    g.nodes.map (·.id) = ["greet", "output"] ∧ extract? (instrument greeterSource) = .ok g := by
  have text : greeterSource.toList = greeter.whole := String.toList_ofList
  obtain ⟨tree, g, parsed, graph, nodes⟩ := exists_graph text ["greet", "output"] (by decide +kernel)
  have fits : greeter.Fits :=
    ⟨by decide +kernel, by decide +kernel, by decide +kernel, by decide +kernel⟩
  have alone : StandsAlone greeter.head :=
    ⟨Option.isSome_iff_exists.mp (by decide +kernel),
      exists_stands (n := 40) (by decide +kernel) (by decide +kernel)⟩
  have settled : ∃ ts s, Settled greeter.prologue ts s :=
    exists_settled (n := 20) (by decide +kernel) (by decide +kernel)
  obtain ⟨front_tree, front⟩ := Option.isSome_iff_exists.mp
    (show (SourceTree.parse? greeter.prologue).isSome by decide +kernel)
  obtain ⟨more_tree, more⟩ := Option.isSome_iff_exists.mp
    (show (SourceTree.parse? (greeter.between ++ greeter.below)).isSome by decide +kernel)
  have closed : greeter.prologue ++ closingBreak greeter.prologue = greeter.prologue := by
    decide +kernel
  have seam : Seam (greeter.prologue ++ closingBreak greeter.prologue)
      (greeter.between ++ greeter.below) front_tree more_tree :=
    closed.symm ▸ ⟨settled, front, more, by decide +kernel⟩
  have free : PassedOver greeter.head :=
    .append (.of_lines (by decide +kernel))
      (.append (.of_lines (by decide +kernel)) (.of_lines (by decide +kernel)))
  obtain ⟨functions_tree, functions⟩ := Option.isSome_iff_exists.mp
    (show (SourceTree.parse? greeterFunctions).isSome by decide +kernel)
  have hook : HookPlace greeter.withRoutine :=
    greeterGuard.hookPlace_below_routine free (.of_lines (by decide +kernel)) alone
      (startsToken_of_head (c := '@') (by decide) _) functions
  have absent : contains routineName.toList greeterSource.toList = false := by
    rw [text]
    decide +kernel
  obtain ⟨-, same | ⟨_, _, _, _, -, failed⟩⟩ :=
    instrument_keeps_graph parsed absent (text ▸ fits.placed seam alone hook)
  · exact ⟨g, graph, nodes, same.trans graph⟩
  · exact nomatch graph.symm.trans failed

/-! A bracket in a comment. -/

/-- The bracket of the comment is taken to close that of the import, so the imports come between
the brackets. -/
def remark : Cut where
  prologue := linesText ["from __future__ import (  # :)"]
  added := linesText ["import ast", "import json"]
  between := linesText ["    annotations,", ")", "", ""]
  below := linesText [
    "def greet(state):",
    "    return state",
    "",
    "",
    "def create_agent():",
    "    graph = StateGraph(dict)",
    "    graph.add_node(\"greet\", greet)",
    "    graph.add_edge(\"greet\", END)",
    "    return graph"]

def remarkSource : String := String.ofList remark.whole

/-- An import within the brackets of another one is no source, whatever is below it. -/
theorem parse?_import_in_import (rest : List Char) : SourceTree.parse?
    ("from __future__ import (  # :)\nimport ast\n".toList ++ rest) = none := by
  let kinds : List TokenKind := [.keyword "from", .name "__future__", .keyword "import", .op "(",
    .keyword "import", .name "ast"]
  obtain ⟨ts, s, found, same⟩ : ∃ ts s,
      run 50 {} 0 "from __future__ import (  # :)\nimport ast\n".toList = some (ts, s) ∧
        ts.map (·.kind) = kinds := ⟨_, _, rfl, rfl⟩
  obtain ⟨spans, placed⟩ := exists_tokensOf ts
  rw [same] at placed
  have boundary : LineBoundary "from __future__ import (  # :)\nimport ast\n".toList rest :=
    .inl (.append_break "from __future__ import (  # :)\nimport ast".toList)
  rw [SourceTree.parse?, tokenize_eq, (reads_of_run found).tokensAt_append .start boundary, placed]
  cases tokensAt s (0 + _) rest with
  | none => rfl
  | some us =>
    have line (fuel : Nat) : read (fuel + 40) .line (tokensOf spans kinds ++ us) = none := rfl
    have deep : Grammar.depth (tokensOf spans kinds ++ us) = 8 * us.length + 24 + 40 := by
      simp [Grammar.depth, tokensOf, kinds]
      omega
    have lines := many_of_none (line (8 * us.length + 24))
    rw [← deep] at lines
    have file : file (tokensOf spans kinds ++ us) = none := by
      rw [Grammar.file, lines]
      rfl
    simp only [Option.map_some, Option.bind_eq_bind, Option.bind_some, file, Option.bind_none]

/-- The imports come into the brackets of another import, and what is written is no source. -/
theorem instrument_breaks_import : ∃ g, extract? remarkSource = .ok g ∧
    g.nodes.map (·.id) = ["greet", "output"] ∧
      contains routineName.toList remarkSource.toList = false ∧
      contains hookMarker.toList remarkSource.toList = false ∧
      SourceTree.parse? (instrument remarkSource).toList = none ∧
      extract? (instrument remarkSource) = .error .invalidSyntax := by
  have text : remarkSource.toList = remark.whole := String.toList_ofList
  obtain ⟨_, g, -, graph, nodes⟩ := exists_graph text ["greet", "output"] (by decide +kernel)
  have fits : remark.Fits :=
    ⟨by decide +kernel, by decide +kernel, by decide +kernel, by decide +kernel⟩
  have head : PassedOver remark.head :=
    .append (.of_lines (by decide +kernel))
      (.append (.of_lines (by decide +kernel)) (.of_lines (by decide +kernel)))
  have unguarded : PassedOver remark.withRoutine :=
    (head.append (passedOver_routine.append passedOver_breaks)).append
      (.of_lines (by decide +kernel))
  have start : ∃ rest, remark.head =
      "from __future__ import (  # :)\nimport ast\n".toList ++ rest :=
    ⟨"import json\n".toList ++ remark.between, by decide +kernel⟩
  have broken : SourceTree.parse? (instrument remarkSource).toList = none := by
    obtain ⟨rest, start⟩ := start
    rw [fits.toList_instrument text, unguarded.injectHook, Cut.withRoutine, start]
    simp only [List.append_assoc, parse?_import_in_import]
  refine ⟨g, graph, nodes, ?_, ?_, broken, ?_⟩
  · rw [text]
    decide +kernel
  · rw [text]
    decide +kernel
  · rw [extract?, broken]

end AgentWorkbench.Instrument
