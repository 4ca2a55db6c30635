import AgentWorkbench.Api.Router
import AgentWorkbench.Store.Faulty
import AgentWorkbench.Worker.Script

/-!
A server: a store, the configuration, the clock, and the supply of fresh sheet ids. Its worker is
a scripted one, given with each session.
-/
namespace AgentWorkbench

inductive Backend where
  | inMemory
  /-- A database that lives as long as its connection. -/
  | database
  | databaseFile
  deriving DecidableEq, Repr

namespace Backend

def emptyStore : Backend → AnyStore
  | inMemory => .inMemory {}
  | database | databaseFile => .relational {}

end Backend

structure Server where
  backend : Backend
  config : Config := {}
  store : FaultyStore AnyStore
  /-- The time in seconds since 1970. -/
  now : Int := 1700000000
  created : Nat := 0

namespace Server

def start (backend : Backend) (config : Config) : Server where
  backend := backend
  config := config
  store := { store := backend.emptyStore }

def apply {α : Type} (s : Server) (op : StoreOp α) : Except StorageError α × Server :=
  let (result, store) := SheetStore.apply op s.store
  (result, { s with store })

def createSheet (idOf : Nat → SheetId) (s : Server) (playground : PlaygroundId) (title : String)
    (files : List SourceFile) : Except StorageError SheetId × Server :=
  match s.apply (.createSheet (idOf s.created) playground title files) with
  | (.ok id, s) => (.ok id, { s with created := s.created + 1 })
  | (.error e, s) => (.error e, s)

def createdBy (r : HttpRequest) (response : Option HttpResponse) : Bool :=
  r.method = "POST" && response.any (·.status = 200)

def respond (idOf : Nat → SheetId) (s : Server) (r : HttpRequest) :
    Option HttpResponse × Server :=
  let (response, store) := r.respond (idOf s.created) s.store
  (response, { s with
    store
    created := if createdBy r response then s.created + 1 else s.created })

/-- Closes the store and opens it again; only a file keeps what it holds. -/
def reopen (s : Server) : Server :=
  match s.backend with
  | .databaseFile => s
  | backend => { s with store := { s.store with store := backend.emptyStore } }

def setFault (s : Server) (method : StoreMethod) (message : Option String) : Server :=
  { s with store := s.store.setFault method message }

/-- Runs a session with a scripted worker as far as the script leads. -/
def runSession (s : Server) (session : Session) (script : WorkerScript) : Rehearsal × Server :=
  let (r, store) := (Rehearsal.start session script).advance s.config s.now s.store
  (r, { s with store })

end Server

end AgentWorkbench
