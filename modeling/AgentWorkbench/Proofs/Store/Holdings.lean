import AgentWorkbench.Proofs.Store.Agreement
import AgentWorkbench.Store.Faulty
import Mathlib.Logic.Function.Basic

/-!
What a store holds, of either kind: the sheets in the order of their creation, and the runs of each
sheet as they are listed. What an operation answers and what it leaves can be told from that alone,
but for the ways in which the kinds keep graphs, timings and times.
-/
namespace AgentWorkbench

/-- A sheet as a store keeps it, with what reading its graph back gives. -/
structure KeptSheet where
  id : SheetId
  playground : PlaygroundId
  title : String
  files : List SourceFile
  graph : Except StorageError (Option PipelineGraph) := .ok none

namespace KeptSheet

def read (k : KeptSheet) : Except StorageError Sheet :=
  k.graph.map fun graph =>
    { id := k.id, playground := k.playground, title := k.title, files := k.files, graph }

def summary (k : KeptSheet) : SheetSummary where
  id := k.id
  title := k.title
  fileCount := k.files.length

end KeptSheet

/-- The record of a run as a store keeps it, with what reading its timings back gives. -/
structure KeptRecord where
  output : String
  timings : Except StorageError (Option Json)
  exitCode : Option Int

structure KeptRun where
  id : Nat
  record : KeptRecord
  createdAt : String

namespace KeptRun

def read (sheet : SheetId) (k : KeptRun) : Except StorageError StoredRun :=
  k.record.timings.map fun timings =>
    { id := k.id
      run := { sheet, output := k.record.output, timings, exitCode := k.record.exitCode }
      createdAt := k.createdAt }

/-- Later times come first, and of two runs at one time the one with the larger id. -/
def isNewer (a b : KeptRun) : Bool :=
  b.createdAt < a.createdAt || (a.createdAt = b.createdAt && b.id < a.id)

end KeptRun

/-- How a store keeps what it is given: what reading a graph and timings back gives, how a time is
written, and where a new run goes among those listed. -/
structure Keeping where
  graph : PipelineGraph → Except StorageError (Option PipelineGraph)
  timings : Option Json → Except StorageError (Option Json)
  time : Int → String
  place : KeptRun → List KeptRun → List KeptRun

namespace Keeping

def inMemory : Keeping where
  graph graph := .ok (some graph)
  timings := .ok
  time now := Timestamp.formatUtc (max now 0)
  place := List.cons

/-- Graphs and timings are kept as their JSON texts. -/
def relational : Keeping where
  graph graph := Database.readColumn PipelineGraph.parse (some graph.compact)
  timings timings := Database.readColumn Json.parse (timings.map Json.compact)
  time := JulianDay.currentTimestamp
  place := Database.insertSorted KeptRun.isNewer

def record (keeping : Keeping) (run : RunRecord) : KeptRecord where
  output := run.output
  timings := keeping.timings run.timings
  exitCode := run.exitCode

def newRun (keeping : Keeping) (id : Nat) (now : Int) (run : RunRecord) : KeptRun where
  id := id
  record := keeping.record run
  createdAt := keeping.time now

/-- A new run goes somewhere among the others, whose order stays. -/
def Places (keeping : Keeping) : Prop :=
  ∀ run runs, ∃ newer older, runs = newer ++ older ∧ keeping.place run runs = newer ++ run :: older

end Keeping

structure Holdings where
  /-- In the order of their creation. -/
  sheets : List KeptSheet := []
  runs : SheetId → List KeptRun := fun _ => []
  lastRun : Nat := 0

namespace Holdings

def has (h : Holdings) (id : SheetId) : Bool := h.sheets.any (·.id = id)

def sheet? (h : Holdings) (id : SheetId) (playground : PlaygroundId) : Option KeptSheet :=
  h.sheets.find? fun k => k.id = id && k.playground = playground

def getSheet (h : Holdings) (id : SheetId) (playground : PlaygroundId) :
    Except StorageError Sheet :=
  match h.sheet? id playground with
  | some k => k.read
  | none => .error (.sheetNotFound id)

def listing (h : Holdings) (playground : PlaygroundId) : List SheetSummary :=
  (h.sheets.filter (·.playground = playground)).map KeptSheet.summary

def listRuns (h : Holdings) (id : SheetId) : Except StorageError (List StoredRun) :=
  if h.has id then (h.runs id).mapM (KeptRun.read id) else .error (.sheetNotFound id)

def modify (h : Holdings) (id : SheetId) (f : KeptSheet → KeptSheet) : Holdings :=
  { h with sheets := h.sheets.map fun k => if k.id = id then f k else k }

def addRun (h : Holdings) (keeping : Keeping) (now : Int) (run : RunRecord) : Holdings :=
  { h with
    lastRun := h.lastRun + 1
    runs := Function.update h.runs run.sheet
      (keeping.place (keeping.newRun (h.lastRun + 1) now run) (h.runs run.sheet)) }

/-- What is answered to an operation and held afterwards. -/
def apply {α : Type} (keeping : Keeping) (op : StoreOp α) (h : Holdings) :
    Except StorageError α × Holdings :=
  match op with
  | .createSheet id playground title files =>
    (.ok id, { h with sheets := h.sheets ++ [{ id, playground, title, files }] })
  | .getSheet id playground => (h.getSheet id playground, h)
  | .listSheets playground => (.ok (h.listing playground), h)
  | .replaceFiles id playground files =>
    if (h.sheet? id playground).isSome then (.ok (), h.modify id fun k => { k with files })
    else (.error (.sheetNotFound id), h)
  | .saveGraph id graph =>
    if h.has id then (.ok (), h.modify id fun k => { k with graph := keeping.graph graph })
    else (.error (.sheetNotFound id), h)
  | .insertRun now run =>
    if h.has run.sheet then (.ok (h.lastRun + 1), h.addRun keeping now run)
    else (.error (.sheetNotFound run.sheet), h)
  | .listRuns id => (h.listRuns id, h)

end Holdings

/-- A store that is no more than what it holds. -/
structure HeldStore where
  keeping : Keeping
  holdings : Holdings

instance : SheetStore HeldStore where
  apply op held :=
    let (result, holdings) := held.holdings.apply held.keeping op
    (result, { held with holdings })

end AgentWorkbench
