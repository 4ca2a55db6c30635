import AgentWorkbench.Session.Message
import AgentWorkbench.Session.Phase
import AgentWorkbench.Session.Plan
import AgentWorkbench.Session.Reader
import AgentWorkbench.Session.Stdin

/-!
A session: one execution of a sheet, from loading its files to recording the run. It moves by
events, each of which is one step: its own next move, what the worker and the process report, the
actions of the readers, and the client's input. A step makes at most one store operation. An event
that the session does not wait for changes nothing.
-/
namespace AgentWorkbench

inductive ExitStatus where
  | code (n : Int)
  | signal
  | unknown (error : WorkerError)
  deriving DecidableEq, Repr, Inhabited

namespace ExitStatus

def code? : ExitStatus → Option Int
  | code n => some n
  | _ => none

def intText (n : Int) : String :=
  if n < 0 then "-" ++ Nat.repr n.natAbs else Nat.repr n.natAbs

def line : ExitStatus → String
  | code n => "\r\nBackend: Process exited with code " ++ intText n ++ ".\r\n"
  | signal => "\r\nBackend: Process terminated by a signal.\r\n"
  | unknown error => "\r\nBackend: Process failed: " ++ error.message ++ ".\r\n"

end ExitStatus

/-- A session while its process runs and its output is read. -/
structure Drain where
  output : OutputAccumulator
  stdout : ReaderTask := {}
  stderr : ReaderTask := {}
  exit : Option ExitStatus := none
  deriving Repr

namespace Drain

def reader (d : Drain) : OutputStream → ReaderTask
  | .stdout => d.stdout
  | .stderr => d.stderr

def setReader (d : Drain) (stream : OutputStream) (r : ReaderTask) : Drain :=
  match stream with
  | .stdout => { d with stdout := r }
  | .stderr => { d with stderr := r }

def setPending (d : Drain) (stream : OutputStream) (pending : List ReaderAction) : Drain :=
  d.setReader stream { d.reader stream with pending }

/-- The exit status, once both streams are read to their ends. -/
def finished? (d : Drain) : Option ExitStatus :=
  if d.stdout.isDone && d.stderr.isDone then d.exit else none

end Drain

structure RunSummary where
  exitCode : Option Int
  /-- The run's id, if it could be stored. -/
  run : Option Nat
  graphEmitted : Bool
  deriving DecidableEq, Repr

inductive Stage where
  | opening
  | loading
  | publishing (plan : RunPlan) (graph : PipelineGraph)
  /-- Waiting for the worker to connect and to take the files. -/
  | uploading (plan : RunPlan)
  | launching (plan : RunPlan)
  | draining (drain : Drain)
  | recording (record : RunRecord) (graphEmitted : Bool)
  | finished (result : Except SessionError RunSummary)

inductive SetupFailure where
  | timeout
  | worker (error : WorkerError)
  deriving DecidableEq, Repr

inductive SessionEvent where
  /-- The session makes its own next move. -/
  | proceed
  | setUp (outcome : Except SetupFailure Unit)
  | started (outcome : Except WorkerError Unit)
  | read (stream : OutputStream) (octets : List UInt8)
  /-- A stream ended, or could not be read. -/
  | close (stream : OutputStream)
  /-- The reader of a stream does the next of its actions. -/
  | deliver (stream : OutputStream)
  | exited (status : ExitStatus)
  | input (text : String)
  /-- The forwarder wrote the next input to the process. -/
  | stdinWritten
  /-- The forwarder's write failed after so many octets. -/
  | stdinFailed (octets : Nat)

structure Session where
  sheet : SheetId
  playground : PlaygroundId
  stage : Stage := .opening
  sent : List ServerMessage := []
  phases : List Phase := []
  stdin : StdinPort := {}

namespace Session

def preparingLine : String := "Backend: Preparing to run your code...\r\n"

def send (s : Session) (m : ServerMessage) : Session := { s with sent := s.sent ++ [m] }

def enter (s : Session) (phase : Phase) : Session := { s with phases := s.phases ++ [phase] }

def moveTo (s : Session) (stage : Stage) : Session := { s with stage }

def announceGraph (s : Session) : Session := s.send (.graphReady s.sheet s.playground)

/-- Ends the session before its process runs. -/
def fail (s : Session) (error : SessionError) : Session :=
  (({ s with stdin := s.stdin.detach }.enter .failed).send
    (.output ("Error: " ++ error.message ++ "\r\n"))).moveTo (.finished (.error error))

def accumulator (plan : RunPlan) : OutputAccumulator :=
  let acc := if plan.language.extractsGraph then {} else OutputAccumulator.withoutGraph
  if plan.staticGraph.isSome then acc.markGraphEmitted else acc

def startUploading (s : Session) (plan : RunPlan) : Session :=
  (s.enter .uploading).moveTo (.uploading plan)

def startDraining (s : Session) (plan : RunPlan) : Session :=
  ({ s with stdin := s.stdin.attach }.enter .draining).moveTo
    (.draining { output := accumulator plan })

def record (s : Session) (d : Drain) (status : ExitStatus) : RunRecord where
  sheet := s.sheet
  output := d.output.output
  timings := d.output.timings
  exitCode := status.code?

/-- Both streams are read and the process has ended. -/
def wrapUp (s : Session) (d : Drain) (status : ExitStatus) : Session :=
  ({ s with stdin := s.stdin.detach }.send (.output status.line)).moveTo
    (.recording (s.record d status) d.output.graphEmitted)

def complete (s : Session) (summary : RunSummary) : Session :=
  ({ s with stdin := s.stdin.detach }.enter .completed).moveTo (.finished (.ok summary))

def plan (config : Config) (s : Session) (sheet : Sheet) : Session :=
  match RunPlan.prepare config sheet.files with
  | .error e => s.fail e
  | .ok plan =>
    match plan.staticGraph with
    | some graph => s.moveTo (.publishing plan graph)
    | none => s.startUploading plan

variable {σ : Type} [SheetStore σ]

/-- Stores a graph for the session's sheet and tells whether that worked. -/
def storeGraph (s : Session) (graph : PipelineGraph) (store : σ) : Bool × σ :=
  match SheetStore.apply (.saveGraph s.sheet graph) store with
  | (.ok (), store) => (true, store)
  | (.error _, store) => (false, store)

def deliver (s : Session) (d : Drain) (stream : OutputStream) (store : σ) : Session × σ :=
  match (d.reader stream).pending with
  | [] => (s, store)
  | .forward text :: rest =>
    ((s.send (.output (String.ofList text))).moveTo (.draining (d.setPending stream rest)), store)
  | .collect text :: rest =>
    let (graph, output) := d.output.append text
    let pending := (graph.map ReaderAction.saveGraph).toList ++ rest
    (s.moveTo (.draining ({ d with output }.setPending stream pending)), store)
  | .saveGraph graph :: rest =>
    let (stored, store) := s.storeGraph graph store
    let pending := if stored then .announceGraph :: rest else rest
    (s.moveTo (.draining (d.setPending stream pending)), store)
  | .announceGraph :: rest =>
    (s.announceGraph.moveTo (.draining (d.setPending stream rest)), store)

def proceed (config : Config) (now : Int) (s : Session) (store : σ) : Session × σ :=
  match s.stage with
  | .opening => (((s.enter .preparing).send (.output preparingLine)).moveTo .loading, store)
  | .loading =>
    match SheetStore.apply (.getSheet s.sheet s.playground) store with
    | (.ok sheet, store) => (s.plan config sheet, store)
    | (.error e, store) => (s.fail (.ofStorage e), store)
  | .publishing plan graph =>
    let (stored, store) := s.storeGraph graph store
    ((if stored then s.announceGraph else s).startUploading plan, store)
  | .draining d =>
    match d.finished? with
    | some status => (s.wrapUp d status, store)
    | none => (s, store)
  | .recording record graphEmitted =>
    let (result, store) := SheetStore.apply (.insertRun now record) store
    (s.complete { exitCode := record.exitCode, run := result.toOption, graphEmitted }, store)
  | _ => (s, store)

def setUp (config : Config) (s : Session) (outcome : Except SetupFailure Unit) : Session :=
  match s.stage, outcome with
  | .uploading plan, .ok () => (s.enter .running).moveTo (.launching plan)
  | .uploading _, .error .timeout => s.fail (.setupTimeout config.setupTimeout)
  | .uploading _, .error (.worker e) => s.fail (.worker e)
  | _, _ => s

def started (s : Session) (outcome : Except WorkerError Unit) : Session :=
  match s.stage, outcome with
  | .launching plan, .ok () => s.startDraining plan
  | .launching _, .error e => s.fail (.worker e)
  | _, _ => s

/-- Changes the draining state, if the session is in it. -/
def modifyDrain (s : Session) (f : Drain → Drain) : Session :=
  match s.stage with
  | .draining d => s.moveTo (.draining (f d))
  | _ => s

def step (config : Config) (now : Int) (s : Session) (event : SessionEvent) (store : σ) :
    Session × σ :=
  match event with
  | .proceed => s.proceed config now store
  | .setUp outcome => (s.setUp config outcome, store)
  | .started outcome => (s.started outcome, store)
  | .read stream octets =>
    (s.modifyDrain fun d => d.setReader stream ((d.reader stream).read stream octets), store)
  | .close stream =>
    (s.modifyDrain fun d => d.setReader stream ((d.reader stream).close stream), store)
  | .deliver stream =>
    match s.stage with
    | .draining d => s.deliver d stream store
    | _ => (s, store)
  | .exited status =>
    (s.modifyDrain fun d => { d with exit := d.exit.or (some status) }, store)
  | .input text => ({ s with stdin := s.stdin.accept text }, store)
  | .stdinWritten => ({ s with stdin := s.stdin.write }, store)
  | .stdinFailed octets => ({ s with stdin := s.stdin.failWrite octets }, store)

def steps (config : Config) (now : Int) (s : Session) : List SessionEvent → σ → Session × σ
  | [], store => (s, store)
  | event :: rest, store =>
    let (s, store) := s.step config now event store
    steps config now s rest store

def result? (s : Session) : Option (Except SessionError RunSummary) :=
  match s.stage with
  | .finished result => some result
  | _ => none

end Session

/-- A client's connection: the session it started, if it started one. -/
structure Terminal where
  session : Option Session := none

namespace Terminal

/-- Takes a text from the client. Only the first start counts; what is no message is ignored. -/
def receive (t : Terminal) (text : String) : Terminal :=
  match ClientMessage.parse? text with
  | some (.start sheet playground) =>
    { session := t.session.or (some { sheet, playground }) }
  | some (.input text) =>
    { session := t.session.map fun s => { s with stdin := s.stdin.accept text } }
  | none => t

end Terminal

end AgentWorkbench
