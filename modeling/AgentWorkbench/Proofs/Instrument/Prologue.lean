import AgentWorkbench.Proofs.Instrument.Fitting
import AgentWorkbench.Proofs.Python.Imports
import Mathlib.Data.List.Sublists

/-!
The imports among the statements of a source. They stand below its prologue, the docstring and the
imports from `__future__`, and above all other statements, if the lines that are taken for the
prologue are one and nothing is open below them.
-/
namespace AgentWorkbench.Instrument

open Text Python Lexer

/-! The imports by themselves. -/

/-- The modules that the routine uses. -/
def requiredModules : List String := ["ast", "json"]

/-- Some imports as lines of their own. -/
def importLines (imports : List String) : List Char := imports.flatMap (·.toList ++ ['\n'])

/-- The statements that imports become: statements over nothing, by which the modules are
imported. -/
structure Imported (imports : List String) (tree : SourceTree) : Prop where
  plain : ∀ n ∈ tree.root.children, n.kind = .statement ∧ n.children = []
  named : ∀ module ∈ requiredModules, "import " ++ module ∈ imports → tree.Imports module

/-- The lines of imports are a source of their own. -/
theorem exists_importLines {imports : List String} (some_import : imports ≠ [])
    (required : imports.Sublist requiredImports) :
    ∃ tree, Insertable (importLines imports) tree ∧ Imported imports tree := by
  have facts : ∀ imports ∈ requiredImports.sublists, imports ≠ [] →
      (importLines imports).head? = some 'i' ∧
      ((run 20 {} 0 (importLines imports)).any fun x => x.2.contexts.isEmpty && !x.2.lineOpen &&
        x.2.column == 0 && x.2.blocks == [0] && !expectsBlock x.2.last) ∧
      (SourceTree.parse? (importLines imports)).any fun tree =>
        decide ((∀ n ∈ tree.root.children, n.kind = .statement ∧ n.children.length = 0) ∧
          ∀ module ∈ requiredModules, "import " ++ module ∈ imports → tree.Imports module) := by
    decide +kernel
  obtain ⟨head, settled, parsed⟩ := facts imports (List.mem_sublists.mpr required) some_import
  have lines : WholeLines (importLines imports) := wholeLines_flatMap _ _
  have settled := exists_settled lines settled
  obtain ⟨tree, parsed, imported⟩ := (Option.any_eq_true _ _).mp parsed
  obtain ⟨plain, named⟩ := of_decide_eq_true imported
  refine ⟨tree, ⟨?_, settled, parsed, ?_⟩,
    fun n mem => (plain n mem).imp_right List.eq_nil_of_length_eq_zero, named⟩
  · exact List.ne_nil_of_mem (List.mem_of_head? head)
  · rw [head]
    simp

theorem missingImports_sublist (source : List Char) :
    (missingImports source).Sublist requiredImports :=
  List.filter_sublist

theorem importsInsertion?_eq_some {source : List Char} {i : Insertion}
    (h : importsInsertion? source = some i) : missingImports source ≠ [] ∧
      i.block = closingBreak i.before ++ importLines (missingImports source) ∧
      i.before ++ i.after = source ∧
      (closingBreak i.before = [] ∨ closingBreak i.before = ['\n'] ∧ i.after = []) := by
  have whole := (importsInsertion?_into h).source_eq
  rw [importsInsertion?] at h
  split at h
  · contradiction
  · next missing =>
    cases h
    refine ⟨mt List.isEmpty_iff.mpr missing, rfl, whole, ?_⟩
    dsimp only
    generalize prologueLines _ true (pieces source) = n
    obtain ⟨closed, -⟩ | ⟨closed, broken⟩ := closingBreak_cases ((pieces source).take n).flatten
    · exact .inl closed
    · refine .inr ⟨closed, ?_⟩
      by_cases inside : n < (pieces source).length
      · exact absurd (wholeLines_take_pieces inside) broken
      · rw [List.drop_eq_nil_of_le (Nat.le_of_not_lt inside), List.flatten_nil]

/-! The imports below a prologue. -/

variable {source front more : List Char} {i : Insertion}
  {tree tree' front_tree more_tree block_tree : SourceTree}

theorem injectImports_of_some (made : importsInsertion? source = some i) :
    injectImports source = (i.before ++ closingBreak i.before) ++
      (importLines (missingImports source) ++ i.after) := by
  obtain ⟨-, block, -, -⟩ := importsInsertion?_eq_some made
  rw [injectImports, made, insertOr, Option.map_some, Option.getD_some, Insertion.text, block]
  simp only [List.append_assoc]

/-- With its last line closed, the source is what stands above and below the imports. -/
theorem parse?_closed (made : importsInsertion? source = some i)
    (parsed : SourceTree.parse? source = some tree) :
    ∃ closed, SourceTree.parse? (i.before ++ closingBreak i.before ++ i.after) = some closed ∧
      (∀ module, tree.Imports module → closed.Imports module) ∧
      ∀ {tree' above added below d}, Inserted closed tree' above added below d →
        Inserted tree tree' above added below d := by
  obtain ⟨-, -, whole, closed | ⟨closed, last⟩⟩ := importsInsertion?_eq_some made
  · refine ⟨tree, ?_, fun _ imported => imported, id⟩
    rwa [closed, List.append_nil, whole]
  · rw [last, List.append_nil] at whole
    rw [closed, last, List.append_nil, whole]
    obtain ⟨broken, -, -, parsed', children, -⟩ := parse?_break parsed
    refine ⟨broken, parsed', ?_, fun inserted => inserted.of_break parsed parsed'⟩
    rintro module ⟨n, mem, imported⟩
    exact ⟨n, children ▸ mem, imported.of_statement rfl
      (SourceTree.statement_break parsed parsed' imported.statement_ne_nil)⟩

/-- The imports become statements among those of the source. -/
theorem parse?_injectImports (made : importsInsertion? source = some i)
    (parsed : SourceTree.parse? source = some tree)
    (seam : Seam (i.before ++ closingBreak i.before) i.after front_tree more_tree) :
    ∃ tree' block_tree, SourceTree.parse? (injectImports source) = some tree' ∧
      Insertable (importLines (missingImports source)) block_tree ∧
      Imported (missingImports source) block_tree ∧
      Inserted tree tree' front_tree.root.children
        (block_tree.root.children.map (Node.moved (i.before ++ closingBreak i.before).length))
        (more_tree.root.children.map (Node.moved (i.before ++ closingBreak i.before).length))
        (importLines (missingImports source)).length := by
  obtain ⟨some_missing, -, -, -⟩ := importsInsertion?_eq_some made
  obtain ⟨block_tree, insertable, imported⟩ :=
    exists_importLines some_missing (missingImports_sublist source)
  obtain ⟨closed, parsed_closed, -, lift⟩ := parse?_closed made parsed
  obtain ⟨tree', parsed', inserted⟩ := seam.insert insertable parsed_closed
  exact ⟨tree', block_tree, injectImports_of_some made ▸ parsed', insertable, imported,
    lift inserted⟩

end AgentWorkbench.Instrument
