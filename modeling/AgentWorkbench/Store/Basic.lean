import AgentWorkbench.Graph.Json
import AgentWorkbench.Sheet.SourceFile

/-!
What a store of sheets keeps, and the operations on it. A sheet belongs to a playground; its runs
are kept beside it. Fresh ids and the time are handed to the operations that use them.
-/
namespace AgentWorkbench

structure SheetId where
  text : String
  deriving DecidableEq, Repr, Inhabited

structure PlaygroundId where
  text : String
  deriving DecidableEq, Repr, Inhabited

structure Sheet where
  id : SheetId
  playground : PlaygroundId
  title : String
  files : List SourceFile
  graph : Option PipelineGraph := none
  deriving Repr, Inhabited

structure SheetSummary where
  id : SheetId
  title : String
  fileCount : Nat
  deriving DecidableEq, Repr, Inhabited

structure RunRecord where
  sheet : SheetId
  output : String
  timings : Option Json := none
  /-- The exit code, if the process ended with one. -/
  exitCode : Option Int := none
  deriving Repr, Inhabited

structure StoredRun where
  id : Nat
  run : RunRecord
  createdAt : String
  deriving Repr, Inhabited

inductive StorageError where
  | sheetNotFound (sheet : SheetId)
  | migration (message : String)
  /-- A stored text does not hold the value it should. -/
  | serialization
  deriving DecidableEq, Repr

namespace StorageError

def isNotFound : StorageError → Bool
  | sheetNotFound _ => true
  | _ => false

def message : StorageError → String
  | sheetNotFound sheet => "sheet not found: " ++ sheet.text
  | migration message => "migration error: " ++ message
  | serialization => "serialization error"

end StorageError

/-- An operation on a store, by the type of its result. -/
inductive StoreOp : Type → Type where
  | createSheet (id : SheetId) (playground : PlaygroundId) (title : String)
    (files : List SourceFile) : StoreOp SheetId
  | getSheet (sheet : SheetId) (playground : PlaygroundId) : StoreOp Sheet
  | listSheets (playground : PlaygroundId) : StoreOp (List SheetSummary)
  | replaceFiles (sheet : SheetId) (playground : PlaygroundId) (files : List SourceFile) :
    StoreOp Unit
  | saveGraph (sheet : SheetId) (graph : PipelineGraph) : StoreOp Unit
  /-- Adds a run at a time, in seconds since 1970. -/
  | insertRun (now : Int) (run : RunRecord) : StoreOp Nat
  /-- The runs of a sheet, newest first. -/
  | listRuns (sheet : SheetId) : StoreOp (List StoredRun)

/-- A store of sheets: what it answers to an operation, and what it holds afterwards. -/
class SheetStore (σ : Type) where
  apply {α : Type} : StoreOp α → σ → Except StorageError α × σ

namespace Sheet

def toJson (s : Sheet) : Json :=
  .obj ([("id", .str s.id.text), ("playgroundId", .str s.playground.text),
    ("title", .str s.title), ("files", .arr (s.files.map SourceFile.toJson))] ++
      s.graph.toList.map fun g => ("graph", g.toJson))

end Sheet

namespace SheetSummary

def toJson (s : SheetSummary) : Json :=
  .obj [("id", .str s.id.text), ("title", .str s.title), ("fileCount", .num (.int s.fileCount))]

end SheetSummary

namespace StoredRun

def toJson (r : StoredRun) : Json :=
  .obj [("id", .num (.int r.id)), ("sheetId", .str r.run.sheet.text),
    ("output", .str r.run.output), ("timings", r.run.timings.getD .null),
    ("exitCode", (r.run.exitCode.map fun code => Json.num (.int code)).getD .null),
    ("createdAt", .str r.createdAt)]

end StoredRun

end AgentWorkbench
