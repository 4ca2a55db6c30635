import AgentWorkbench.Api.MediaType
import AgentWorkbench.Api.Sheets
import AgentWorkbench.Api.Target
import AgentWorkbench.Text.Search

/-!
Requests over HTTP: which paths there are, which methods they take, and the responses. Every
origin may make every request.
-/
namespace AgentWorkbench

structure HttpRequest where
  method : String
  target : String
  /-- Names are in lower case. -/
  headers : List (String × String) := []
  body : String := ""
  deriving Repr

structure HttpResponse where
  status : Nat
  headers : List (String × String) := []
  body : String := ""
  deriving DecidableEq, Repr

namespace HttpRequest

def header? (r : HttpRequest) (name : String) : Option String :=
  (r.headers.find? (·.1 = name)).map (·.2)

end HttpRequest

namespace HttpResponse

def header? (r : HttpResponse) (name : String) : Option String :=
  (r.headers.find? (·.1 = name)).map (·.2)

def contentType : String := "content-type"

def jsonType : String := "application/json"

def plainType : String := "text/plain; charset=utf-8"

def json (status : Nat) (value : Json) : HttpResponse where
  status := status
  headers := [(contentType, jsonType)]
  body := value.compact

def plain (status : Nat) (text : String) : HttpResponse where
  status := status
  headers := [(contentType, plainType)]
  body := text

def withHeader (r : HttpResponse) (name value : String) : HttpResponse :=
  { r with headers := r.headers ++ [(name, value)] }

def withHeaders (r : HttpResponse) (headers : List (String × String)) : HttpResponse :=
  { r with headers := r.headers ++ headers }

end HttpResponse

/-- The paths, with their parameters as they are written. -/
inductive Route where
  | root
  | sheets (playground : List Char)
  | sheet (playground sheet : List Char)
  | files (playground sheet : List Char)
  | runs (playground sheet : List Char)
  | terminal
  deriving DecidableEq, Repr

namespace Route

/-- The route of a path. A parameter at its end must not be empty. -/
def ofPath? (path : List Char) : Option Route :=
  match (Text.splitOn '/' path).map String.ofList with
  | ["", ""] => some root
  | ["", "ws"] => some terminal
  | ["", "playgrounds", playground, "sheets"] => some (sheets playground.toList)
  | ["", "playgrounds", playground, "sheets", id] =>
    if id = "" then none else some (sheet playground.toList id.toList)
  | ["", "playgrounds", playground, "sheets", id, "files"] =>
    some (files playground.toList id.toList)
  | ["", "playgrounds", playground, "sheets", id, "runs"] =>
    some (runs playground.toList id.toList)
  | _ => none

def methods : Route → List String
  | root | sheet .. | runs .. | terminal => ["GET", "HEAD"]
  | sheets _ => ["GET", "HEAD", "POST"]
  | files .. => ["PUT"]

def allow (route : Route) : String := ",".intercalate route.methods

end Route

/-- Why a request gets no answer from its handler. -/
inductive Rejection where
  | badParameter
  | notJsonType
  | malformedBody
  | wrongShape
  deriving DecidableEq, Repr

namespace Rejection

def status : Rejection → Nat
  | badParameter | malformedBody => 400
  | notJsonType => 415
  | wrongShape => 422

def message : Rejection → String
  | badParameter => "invalid path parameter"
  | notJsonType => "expected a body of type application/json"
  | malformedBody => "malformed request body"
  | wrongShape => "request body of the wrong shape"

def ofJson : JsonError → Rejection
  | .malformed => malformedBody
  | .wrongShape => wrongShape

end Rejection

namespace HttpRequest

structure CreateDraft where
  title : Option String := none
  files : Option (List SourceFile) := none

def filesField {σ : Type} (get : σ → Option (List SourceFile))
    (put : σ → List SourceFile → σ) : JsonField σ :=
  .of "files" get put (JsonReader.list SourceFile.reader)

/-- A body that creates a sheet; without files if it names none. -/
def createReader : (depth : Nat) → JsonReader (String × List SourceFile) :=
  JsonReader.record
    [.of "title" CreateDraft.title (fun s v => { s with title := some v })
        fun _ => JsonReader.text,
      filesField CreateDraft.files (fun s v => { s with files := some v })]
    {} fun s => do return (← s.title, s.files.getD [])

def filesReader : (depth : Nat) → JsonReader (List SourceFile) :=
  JsonReader.record [filesField id fun _ v => some v] none id

/-- Reads the body, which has to be JSON. -/
def readBody {α : Type} (r : HttpRequest) (reader : Nat → JsonReader α) : Except Rejection α :=
  match (r.header? HttpResponse.contentType).bind MediaType.parse? with
  | none => .error .notJsonType
  | some type =>
    if type.isJson then
      (JsonReader.run (reader JsonReader.depthLimit) r.body.toList).mapError Rejection.ofJson
    else .error .notJsonType

def parameter (cs : List Char) : Except Rejection String :=
  match Target.decodeParameter? cs with
  | some text => .ok text
  | none => .error .badParameter

/-- The request on sheets that is made with a method that the route takes; `none` on the routes
that are not about sheets. -/
def sheetRequest? (r : HttpRequest) : Route → Except Rejection (Option SheetRequest)
  | .root | .terminal => .ok none
  | .sheets playground => do
    let playground : PlaygroundId := ⟨← parameter playground⟩
    if r.method = "POST" then
      let (title, files) ← r.readBody createReader
      return some (.create playground title files)
    else return some (.list playground)
  | .sheet playground sheet => do
    return some (.get ⟨← parameter playground⟩ ⟨← parameter sheet⟩)
  | .files playground sheet => do
    let playground ← parameter playground
    let sheet ← parameter sheet
    return some (.replaceFiles ⟨playground⟩ ⟨sheet⟩ (← r.readBody filesReader))
  | .runs playground sheet => do
    return some (.listRuns ⟨← parameter playground⟩ ⟨← parameter sheet⟩)

def isToken (wanted : String) (value : Option String) : Bool :=
  value.any fun text => Text.lowerAscii text.toList = wanted.toList

/-- The answer of the terminal's route to a request that is made outside of a connection which can
be upgraded. -/
def terminalResponse (r : HttpRequest) : HttpResponse :=
  let upgrades := (r.header? "connection").any fun text =>
    Text.contains "upgrade".toList (Text.lowerAscii text.toList)
  if r.method ≠ "GET" then .plain 405 "the method has to be GET"
  else if !upgrades || !isToken "websocket" (r.header? "upgrade") ||
      !isToken "13" (r.header? "sec-websocket-version") ||
      (r.header? "sec-websocket-key").isNone then
    .plain 400 "the request does not ask for an upgrade"
  else .plain 426 "the connection cannot be upgraded"

def ofAnswer : Except ApiError Json → HttpResponse
  | .ok value => .json 200 value
  | .error e => .json e.status e.toJson

variable {σ : Type} [SheetStore σ]

def handle (fresh : SheetId) (r : HttpRequest) (route : Route) (store : σ) : HttpResponse × σ :=
  match r.sheetRequest? route with
  | .error rejection => (.plain rejection.status rejection.message, store)
  | .ok none =>
    (if route = .terminal then r.terminalResponse else .plain 200 "flowgraph server is running",
      store)
  | .ok (some request) =>
    let (answer, store) := request.answer fresh store
    (ofAnswer answer, store)

/-- Which headers let a page of any origin make the request. -/
def originHeaders (r : HttpRequest) : List (String × String) :=
  [("access-control-allow-origin", "*"),
    ("vary", "origin, access-control-request-method, access-control-request-headers")] ++
  if r.method = "OPTIONS" then
    [("access-control-allow-methods", "*"), ("access-control-allow-headers", "*")]
  else [("access-control-expose-headers", "*")]

def forMethod (r : HttpRequest) (response : HttpResponse) : HttpResponse :=
  if r.method = "HEAD" then { response with body := "" } else response

/-- The response, apart from the headers that every one has. -/
def route (fresh : SheetId) (r : HttpRequest) (path : List Char) (store : σ) :
    HttpResponse × σ :=
  match Route.ofPath? path with
  | none => ({ status := if r.method = "OPTIONS" then 200 else 404 }, store)
  | some route =>
    if r.method = "OPTIONS" then
      (({ status := 200 } : HttpResponse).withHeader "allow" route.allow, store)
    else if route.methods.contains r.method then
      let (response, store) := r.handle fresh route store
      (r.forMethod response, store)
    else (({ status := 405 } : HttpResponse).withHeader "allow" route.allow, store)

/-- Responds to a request; `none` if its target is invalid. -/
def respond (fresh : SheetId) (r : HttpRequest) (store : σ) : Option HttpResponse × σ :=
  match Target.path? r.target with
  | none => (none, store)
  | some path =>
    let (response, store) := r.route fresh path store
    (some (response.withHeaders r.originHeaders), store)

end HttpRequest

end AgentWorkbench
