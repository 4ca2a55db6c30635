import AgentWorkbench.Store.Basic
import AgentWorkbench.Store.JulianDay

/-!
The store that keeps rows in the tables of a database. Graphs and timings are kept as JSON text,
the files of a sheet as rows of their own with their positions. Every change is a transaction: if
one of its statements fails, none of them has an effect.
-/
namespace AgentWorkbench

structure SheetRow where
  id : SheetId
  playground : PlaygroundId
  title : String
  graph : Option String := none
  deriving Repr, Inhabited

structure FileRow where
  sheet : SheetId
  position : Nat
  file : SourceFile
  deriving Repr, Inhabited

structure RunRow where
  id : Nat
  sheet : SheetId
  output : String
  timings : Option String
  exitCode : Option Int
  createdAt : String
  deriving Repr, Inhabited

structure Database where
  /-- In the order of their insertion. -/
  sheets : List SheetRow := []
  files : List FileRow := []
  runs : List RunRow := []
  /-- The largest id that a run has had. -/
  runSequence : Nat := 0
  deriving Repr, Inhabited

abbrev Statements (α : Type) := StateT Database (Except StorageError) α

namespace Database

def transaction {α : Type} (statements : Statements α) (db : Database) :
    Except StorageError α × Database :=
  match statements db with
  | .ok (a, changed) => (.ok a, changed)
  | .error e => (.error e, db)

/-- The rows in order: each goes before the first that it precedes strictly. -/
def insertSorted {ρ : Type} (before : ρ → ρ → Bool) (row : ρ) : List ρ → List ρ
  | [] => [row]
  | other :: rest =>
    if before row other then row :: other :: rest else other :: insertSorted before row rest

def orderBy {ρ : Type} (before : ρ → ρ → Bool) (rows : List ρ) : List ρ :=
  rows.foldl (fun sorted row => insertSorted before row sorted) []

def sheetRow? (db : Database) (sheet : SheetId) : Option SheetRow :=
  db.sheets.find? (·.id = sheet)

/-- Fails unless there is a sheet with the id, in the playground if one is given. -/
def requireSheet (sheet : SheetId) (playground : Option PlaygroundId) : Statements Unit :=
  fun db =>
    if db.sheets.any fun row => row.id = sheet && playground.all (row.playground = ·) then
      .ok ((), db)
    else .error (.sheetNotFound sheet)

def deleteFiles (sheet : SheetId) : Statements Unit := fun db =>
  .ok ((), { db with files := db.files.filter (·.sheet ≠ sheet) })

def insertFile (sheet : SheetId) (position : Nat) (file : SourceFile) : Statements Unit :=
  fun db => .ok ((), { db with files := db.files ++ [{ sheet, position, file }] })

def insertFiles (sheet : SheetId) : (position : Nat) → List SourceFile → Statements Unit
  | _, [] => pure ()
  | position, file :: rest => do
    insertFile sheet position file
    insertFiles sheet (position + 1) rest

def writeFiles (sheet : SheetId) (files : List SourceFile) : Statements Unit := do
  deleteFiles sheet
  insertFiles sheet 0 files

def insertSheet (row : SheetRow) : Statements Unit := fun db =>
  .ok ((), { db with sheets := db.sheets ++ [row] })

/-- Sets the graph of a sheet; fails if there is no such sheet. -/
def updateGraph (sheet : SheetId) (graph : String) : Statements Unit := fun db =>
  if db.sheets.any (·.id = sheet) then
    .ok ((), { db with sheets := db.sheets.map fun row =>
      if row.id = sheet then { row with graph := some graph } else row })
  else .error (.sheetNotFound sheet)

/-- Adds a run under an id that no run has had. -/
def insertRun (now : Int) (run : RunRecord) : Statements Nat := fun db =>
  let id := db.runSequence + 1
  let row : RunRow := {
    id
    sheet := run.sheet
    output := run.output
    timings := run.timings.map Json.compact
    exitCode := run.exitCode
    createdAt := JulianDay.currentTimestamp now }
  .ok (id, { db with runs := db.runs ++ [row], runSequence := id })

def filesOf (db : Database) (sheet : SheetId) : List SourceFile :=
  (orderBy (fun a b => a.position < b.position) (db.files.filter (·.sheet = sheet))).map (·.file)

def readColumn {α : Type} (parse : String → Except JsonError α) :
    Option String → Except StorageError (Option α)
  | none => .ok none
  | some text =>
    match parse text with
    | .ok a => .ok (some a)
    | .error _ => .error .serialization

def readSheet (db : Database) (sheet : SheetId) (playground : PlaygroundId) :
    Except StorageError Sheet :=
  match db.sheets.find? fun row => row.id = sheet && row.playground = playground with
  | none => .error (.sheetNotFound sheet)
  | some row => do
    let graph ← readColumn PipelineGraph.parse row.graph
    return { id := sheet, playground, title := row.title, files := db.filesOf sheet, graph }

def summary (db : Database) (row : SheetRow) : SheetSummary where
  id := row.id
  title := row.title
  fileCount := (db.files.filter (·.sheet = row.id)).length

/-- Later times come first, and of two runs at one time the one with the larger id. -/
def isNewer (a b : RunRow) : Bool :=
  b.createdAt < a.createdAt || (a.createdAt = b.createdAt && b.id < a.id)

def readRun (sheet : SheetId) (row : RunRow) : Except StorageError StoredRun := do
  let timings ← readColumn Json.parse row.timings
  return {
    id := row.id
    run := { sheet, output := row.output, timings, exitCode := row.exitCode }
    createdAt := row.createdAt }

def readRuns (db : Database) (sheet : SheetId) : Except StorageError (List StoredRun) := do
  if db.sheets.any (·.id = sheet) then
    (orderBy isNewer (db.runs.filter (·.sheet = sheet))).mapM (readRun sheet)
  else throw (.sheetNotFound sheet)

def apply {α : Type} (op : StoreOp α) (db : Database) : Except StorageError α × Database :=
  match op with
  | .createSheet id playground title files =>
    db.transaction do
      insertSheet { id, playground, title }
      writeFiles id files
      return id
  | .getSheet sheet playground => (db.readSheet sheet playground, db)
  | .listSheets playground =>
    (.ok ((db.sheets.filter (·.playground = playground)).map db.summary), db)
  | .replaceFiles sheet playground files =>
    db.transaction do
      requireSheet sheet (some playground)
      writeFiles sheet files
  | .saveGraph sheet graph => db.transaction (updateGraph sheet graph.compact)
  | .insertRun now run =>
    db.transaction do
      requireSheet run.sheet none
      insertRun now run
  | .listRuns sheet => (db.readRuns sheet, db)

instance : SheetStore Database where
  apply := apply

end Database

end AgentWorkbench
