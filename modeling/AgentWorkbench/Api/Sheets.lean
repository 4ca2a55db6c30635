import AgentWorkbench.Store.Basic
import AgentWorkbench.Text.Blank

/-!
The requests on sheets that clients can make, and the answers to them. A title must not be blank,
and files that take the place of others need names.
-/
namespace AgentWorkbench

inductive SheetRequest where
  | list (playground : PlaygroundId)
  | create (playground : PlaygroundId) (title : String) (files : List SourceFile)
  | get (playground : PlaygroundId) (sheet : SheetId)
  | replaceFiles (playground : PlaygroundId) (sheet : SheetId) (files : List SourceFile)
  | listRuns (playground : PlaygroundId) (sheet : SheetId)
  deriving Repr

inductive ApiError where
  | badRequest (message : String)
  | notFound (message : String)
  | internal (message : String)
  deriving DecidableEq, Repr

namespace ApiError

def ofStorage (e : StorageError) : ApiError :=
  if e.isNotFound then notFound e.message else internal e.message

def status : ApiError → Nat
  | badRequest _ => 400
  | notFound _ => 404
  | internal _ => 500

def code : ApiError → String
  | badRequest _ => "BAD_REQUEST"
  | notFound _ => "NOT_FOUND"
  | internal _ => "INTERNAL_ERROR"

def message : ApiError → String
  | badRequest message | notFound message | internal message => message

def toJson (e : ApiError) : Json :=
  .obj [("error", .obj [("code", .str e.code), ("message", .str e.message)]),
    ("success", .bool false)]

end ApiError

namespace SheetRequest

variable {σ : Type} [SheetStore σ]

def reply {α : Type} (op : StoreOp α) (toJson : α → Json) (store : σ) : Except ApiError Json × σ :=
  match SheetStore.apply op store with
  | (.ok a, store) => (.ok (toJson a), store)
  | (.error e, store) => (.error (.ofStorage e), store)

def createdJson (title : String) (id : SheetId) : Json :=
  .obj [("id", .str id.text), ("title", .str title)]

def replacedJson (files : List SourceFile) (_ : Unit) : Json :=
  .obj [("files", .num (.int files.length)), ("success", .bool true)]

/-- What is wrong with a request before the store is asked. -/
def problem? : SheetRequest → Option ApiError
  | create _ title _ =>
    if Text.isBlankText title then some (.badRequest "title is required") else none
  | replaceFiles _ _ files =>
    if files.any (Text.isBlankText ·.filename) then
      some (.badRequest "every file needs a filename")
    else none
  | _ => none

/-- Asks the store; a sheet that is created gets the fresh id. -/
def ask (fresh : SheetId) (request : SheetRequest) (store : σ) : Except ApiError Json × σ :=
  match request with
  | list playground =>
    reply (.listSheets playground)
      (fun sheets => .obj [("sheets", .arr (sheets.map SheetSummary.toJson))]) store
  | create playground title files =>
    reply (.createSheet fresh playground title files) (createdJson title) store
  | get playground sheet => reply (.getSheet sheet playground) Sheet.toJson store
  | replaceFiles playground sheet files =>
    reply (.replaceFiles sheet playground files) (replacedJson files) store
  | listRuns playground sheet =>
    match SheetStore.apply (.getSheet sheet playground) store with
    | (.error e, store) => (.error (.ofStorage e), store)
    | (.ok _, store) =>
      reply (.listRuns sheet) (fun runs => .obj [("runs", .arr (runs.map StoredRun.toJson))])
        store

def answer (fresh : SheetId) (request : SheetRequest) (store : σ) : Except ApiError Json × σ :=
  match request.problem? with
  | some e => (.error e, store)
  | none => request.ask fresh store

end SheetRequest

end AgentWorkbench
