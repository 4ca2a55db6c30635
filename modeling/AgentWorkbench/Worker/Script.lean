import AgentWorkbench.Session.Basic

/-!
A worker that follows a script: how long connecting and uploading take, what fails, and what the
process does, one event after the other. Each event is taken up fully before the next one happens.
At the end both streams close and the process exits.
-/
namespace AgentWorkbench

inductive ProcessEvent where
  | output (stream : OutputStream) (octets : List UInt8)
  | close (stream : OutputStream)
  | input (text : String)
  /-- From now on writes to the process's standard input fail. -/
  | breakStdin
  /-- Nothing happens until so many octets were written to the process. -/
  | awaitStdin (octets : Nat)
  /-- Nothing happens any more. -/
  | hang
  | exit
  deriving Repr

structure WorkerScript where
  /-- Delays are in milliseconds. -/
  connectDelay : Nat := 0
  connectError : Option String := none
  uploadDelay : Nat := 0
  /-- A path that cannot be uploaded: for the reason given, or as it is no path of a workspace. -/
  uploadError : Option (String × Option String) := none
  launchError : Option String := none
  exit : ExitStatus := .signal
  events : List ProcessEvent := []
  deriving Repr

structure WorkerLog where
  connects : Nat := 0
  uploads : List SourceFile := []
  launches : List (Launch × EnvVars) := []
  inputs : List Bool := []
  deriving Repr

namespace WorkerScript

/-- The events up to the end of the process. -/
def allEvents (script : WorkerScript) : List ProcessEvent :=
  script.events ++ [.close .stdout, .close .stderr, .exit]

def uploadFailure? (script : WorkerScript) (path : String) : Option WorkerError := do
  let (failing, reason) ← script.uploadError
  guard (failing = path)
  return match reason with
    | some reason => .io ("writing " ++ path) reason
    | none => .invalidPath path

/-- Uploads files; `elapsed` is the time since the setup began. -/
def upload (script : WorkerScript) (timeout : Nat) :
    (elapsed : Nat) → List SourceFile → List SourceFile × Except SetupFailure Unit
  | _, [] => ([], .ok ())
  | elapsed, file :: rest =>
    let elapsed := elapsed + script.uploadDelay
    if timeout < elapsed then ([], .error .timeout)
    else
      match script.uploadFailure? file.filename with
      | some e => ([], .error (.worker e))
      | none =>
        let (taken, outcome) := upload script timeout elapsed rest
        (file :: taken, outcome)

def setUp (script : WorkerScript) (timeout : Nat) (files : List SourceFile) (log : WorkerLog) :
    WorkerLog × Except SetupFailure Unit :=
  if timeout < script.connectDelay then (log, .error .timeout)
  else
    let log := { log with connects := log.connects + 1 }
    match script.connectError with
    | some reason => (log, .error (.worker (.connect reason)))
    | none =>
      let (taken, outcome) := script.upload timeout script.connectDelay files
      ({ log with uploads := log.uploads ++ taken }, outcome)

def launch (script : WorkerScript) (plan : RunPlan) (log : WorkerLog) :
    WorkerLog × Except WorkerError Unit :=
  ({ log with launches := log.launches ++ [(plan.launch, plan.env)] },
    match script.launchError with
    | some reason => .error (.launch plan.launch.program reason)
    | none => .ok ())

end WorkerScript

structure Rehearsal where
  session : Session
  script : WorkerScript
  log : WorkerLog := {}
  ahead : List ProcessEvent
  stdinBroken : Bool := false

namespace Rehearsal

/-- The most octets that one read gives. -/
def readLimit : Nat := 8192

def readPieces : (fuel : Nat) → List UInt8 → List (List UInt8)
  | 0, _ => []
  | _ + 1, [] => []
  | fuel + 1, octets => octets.take readLimit :: readPieces fuel (octets.drop readLimit)

def start (session : Session) (script : WorkerScript) : Rehearsal where
  session := session
  script := script
  ahead := script.allEvents

variable {σ : Type} [SheetStore σ] (config : Config) (now : Int)

/-- No reading leads to more actions than these: to forward, to collect, to store and to
announce. -/
def deliveries (stream : OutputStream) : List SessionEvent :=
  List.replicate 4 (.deliver stream)

def feed (r : Rehearsal) (events : List SessionEvent) (store : σ) : Rehearsal × σ :=
  let (session, store) := r.session.steps config now events store
  ({ r with session }, store)

def flushStdin (r : Rehearsal) : Rehearsal :=
  { r with session :=
      { r.session with stdin := r.session.stdin.flush r.stdinBroken } }

def offer (r : Rehearsal) (text : String) : Rehearsal :=
  flushStdin { r with session := { r.session with stdin := r.session.stdin.accept text } }

def isBlocked (r : Rehearsal) : ProcessEvent → Bool
  | .hang => true
  | .awaitStdin octets => r.session.stdin.written.length < octets
  | _ => false

def happen (r : Rehearsal) (event : ProcessEvent) (store : σ) : Rehearsal × σ :=
  match event with
  | .output stream octets =>
    r.feed config now ((readPieces (octets.length + 1) octets).flatMap fun piece =>
      .read stream piece :: deliveries stream) store
  | .close stream => r.feed config now (.close stream :: deliveries stream) store
  | .input text =>
    let taken := r.session.stdin.isOpen
    ({ r.offer text with log := { r.log with inputs := r.log.inputs ++ [taken] } }, store)
  | .breakStdin => ({ r with stdinBroken := true }, store)
  | .exit => r.feed config now [.exited r.script.exit] store
  | .awaitStdin _ | .hang => (r, store)

/-- Goes through events up to the first that is blocked; the others are left. -/
def play (r : Rehearsal) (store : σ) : List ProcessEvent → Rehearsal × σ
  | [] => ({ r with ahead := [] }, store)
  | event :: rest =>
    if r.isBlocked event then ({ r with ahead := event :: rest }, store)
    else
      let (r, store) := r.happen config now event store
      play r store rest

/-- Lets the worker set up and launch, if the session waits for it. -/
def serve (r : Rehearsal) (store : σ) : Rehearsal × σ :=
  match r.session.stage with
  | .uploading plan =>
    let (log, outcome) := r.script.setUp config.setupTimeout plan.uploads r.log
    feed config now { r with log } [.setUp outcome] store
  | .launching plan =>
    let (log, outcome) := r.script.launch plan r.log
    feed config now { r with log } [.started outcome] store
  | _ => (r, store)

def advance (r : Rehearsal) (store : σ) : Rehearsal × σ :=
  let (r, store) := r.feed config now [.proceed, .proceed, .proceed] store
  let (r, store) := r.serve config now store
  let (r, store) := r.serve config now store
  match r.session.stage with
  | .draining _ =>
    let (r, store) := r.play config now store r.ahead
    r.feed config now [.proceed, .proceed] store
  | _ => (r, store)

end Rehearsal

end AgentWorkbench
