import AgentWorkbench.Store.Basic
import AgentWorkbench.Store.Timestamp

/-!
The store that keeps everything in memory: sheets in the order of their creation, and runs in the
order of their insertion. A time before 1970 counts as 1970.
-/
namespace AgentWorkbench

structure InMemoryStore where
  sheets : List Sheet := []
  runs : List StoredRun := []
  lastRunId : Nat := 0
  deriving Repr, Inhabited

namespace InMemoryStore

def sheet? (s : InMemoryStore) (id : SheetId) : Option Sheet :=
  s.sheets.find? (·.id = id)

def scoped? (s : InMemoryStore) (id : SheetId) (playground : PlaygroundId) : Option Sheet :=
  (s.sheet? id).filter (·.playground = playground)

def has (s : InMemoryStore) (id : SheetId) : Bool := (s.sheet? id).isSome

def modifySheet (s : InMemoryStore) (id : SheetId) (f : Sheet → Sheet) : InMemoryStore :=
  { s with sheets := s.sheets.map fun sheet => if sheet.id = id then f sheet else sheet }

def summary (sheet : Sheet) : SheetSummary where
  id := sheet.id
  title := sheet.title
  fileCount := sheet.files.length

def createSheet (s : InMemoryStore) (sheet : Sheet) : InMemoryStore :=
  { s with sheets := s.sheets ++ [sheet] }

def insertRun (s : InMemoryStore) (now : Int) (run : RunRecord) : InMemoryStore :=
  let id := s.lastRunId + 1
  { s with
    lastRunId := id
    runs := s.runs ++ [{ id, run, createdAt := Timestamp.formatUtc (max now 0) }] }

def apply {α : Type} (op : StoreOp α) (s : InMemoryStore) :
    Except StorageError α × InMemoryStore :=
  match op with
  | .createSheet id playground title files =>
    (.ok id, s.createSheet { id, playground, title, files })
  | .getSheet sheet playground =>
    match s.scoped? sheet playground with
    | some found => (.ok found, s)
    | none => (.error (.sheetNotFound sheet), s)
  | .listSheets playground =>
    (.ok ((s.sheets.filter (·.playground = playground)).map summary), s)
  | .replaceFiles sheet playground files =>
    if (s.scoped? sheet playground).isSome then
      (.ok (), s.modifySheet sheet fun found => { found with files })
    else (.error (.sheetNotFound sheet), s)
  | .saveGraph sheet graph =>
    if s.has sheet then (.ok (), s.modifySheet sheet fun found => { found with graph })
    else (.error (.sheetNotFound sheet), s)
  | .insertRun now run =>
    if s.has run.sheet then (.ok (s.lastRunId + 1), s.insertRun now run)
    else (.error (.sheetNotFound run.sheet), s)
  | .listRuns sheet =>
    if s.has sheet then (.ok (s.runs.reverse.filter (·.run.sheet = sheet)), s)
    else (.error (.sheetNotFound sheet), s)

instance : SheetStore InMemoryStore where
  apply := apply

end InMemoryStore

end AgentWorkbench
