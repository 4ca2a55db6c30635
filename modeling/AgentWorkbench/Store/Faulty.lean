import AgentWorkbench.Store.InMemory
import AgentWorkbench.Store.Relational

/-!
A store of either kind, and a store some of whose operations fail on demand.
-/
namespace AgentWorkbench

inductive AnyStore where
  | inMemory (store : InMemoryStore)
  | relational (db : Database)
  deriving Repr, Inhabited

namespace AnyStore

def apply {α : Type} (op : StoreOp α) : AnyStore → Except StorageError α × AnyStore
  | inMemory store =>
    let (result, store) := SheetStore.apply op store
    (result, inMemory store)
  | relational db =>
    let (result, db) := SheetStore.apply op db
    (result, relational db)

instance : SheetStore AnyStore where
  apply := apply

end AnyStore

/-- The operations by name, without their arguments. -/
inductive StoreMethod where
  | createSheet
  | getSheet
  | listSheets
  | replaceFiles
  | saveGraph
  | insertRun
  | listRuns
  deriving DecidableEq, Repr

namespace StoreMethod

def name : StoreMethod → String
  | createSheet => "create_sheet"
  | getSheet => "get_sheet"
  | listSheets => "list_sheets"
  | replaceFiles => "replace_files"
  | saveGraph => "save_graph"
  | insertRun => "insert_run"
  | listRuns => "list_runs"

def all : List StoreMethod :=
  [createSheet, getSheet, listSheets, replaceFiles, saveGraph, insertRun, listRuns]

def parse? (text : String) : Option StoreMethod :=
  all.find? (·.name = text)

end StoreMethod

def StoreOp.method {α : Type} : StoreOp α → StoreMethod
  | .createSheet .. => .createSheet
  | .getSheet .. => .getSheet
  | .listSheets .. => .listSheets
  | .replaceFiles .. => .replaceFiles
  | .saveGraph .. => .saveGraph
  | .insertRun .. => .insertRun
  | .listRuns .. => .listRuns

/-- A store with the methods that fail, each with its message. -/
structure FaultyStore (σ : Type) where
  store : σ
  faults : List (StoreMethod × String) := []

namespace FaultyStore

variable {σ : Type}

def fault? (s : FaultyStore σ) (method : StoreMethod) : Option String :=
  (s.faults.find? (·.1 = method)).map (·.2)

def setFault (s : FaultyStore σ) (method : StoreMethod) (message : Option String) :
    FaultyStore σ :=
  { s with faults :=
      message.toList.map (method, ·) ++ s.faults.filter (·.1 ≠ method) }

def apply [SheetStore σ] {α : Type} (op : StoreOp α) (s : FaultyStore σ) :
    Except StorageError α × FaultyStore σ :=
  match s.fault? op.method with
  | some message => (.error (.migration message), s)
  | none =>
    let (result, store) := SheetStore.apply op s.store
    (result, { s with store })

instance [SheetStore σ] : SheetStore (FaultyStore σ) where
  apply := apply

end FaultyStore

end AgentWorkbench
