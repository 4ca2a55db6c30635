import AgentWorkbench.Session.Basic
import Mathlib.Data.List.Basic

/-!
What a session does, in order. Run on a store that keeps a journal of the operations made on it, a
step of a session leaves its store calls, its messages and the phases it enters; these are its
effects. Whatever the store answers, a step is one of the moves below. As nothing is assumed of the
store, others may use it between any two calls of the session.
-/
namespace AgentWorkbench

/-- An operation on a store and its result, as far as the graph of a session is concerned. -/
inductive StoreCall where
  | loaded (sheet : SheetId) (playground : PlaygroundId) (result : Except StorageError Sheet)
  | saved (sheet : SheetId) (graph : PipelineGraph) (result : Except StorageError Unit)
  | other

def StoreCall.of : {α : Type} → StoreOp α → Except StorageError α → StoreCall
  | _, .getSheet sheet playground, result => .loaded sheet playground result
  | _, .saveGraph sheet graph, result => .saved sheet graph result
  | _, _, _ => .other

/-- A store and the operations made on it so far. -/
structure Journal (σ : Type) where
  store : σ
  calls : List StoreCall := []

instance {σ : Type} [SheetStore σ] : SheetStore (Journal σ) where
  apply op journal :=
    let (result, store) := SheetStore.apply op journal.store
    (result, { store, calls := journal.calls ++ [.of op result] })

theorem Journal.apply_of {σ α : Type} [SheetStore σ] {op : StoreOp α} {store later : σ}
    {result : Except StorageError α} (answer : SheetStore.apply op store = (result, later))
    (calls : List StoreCall) :
    SheetStore.apply op ({ store, calls } : Journal σ) =
      (result, { store := later, calls := calls ++ [.of op result] }) := by
  have journal : SheetStore.apply op ({ store, calls } : Journal σ) =
      ((SheetStore.apply op store).1,
        { store := (SheetStore.apply op store).2
          calls := calls ++ [.of op (SheetStore.apply op store).1] }) := rfl
  rw [journal, answer]

inductive SessionEffect where
  | called (call : StoreCall)
  /-- A message to the client, with the stream whose reader sent it. -/
  | sent (reader : Option OutputStream) (message : ServerMessage)
  | entered (phase : Phase)

namespace SessionEffect

def call? : SessionEffect → Option StoreCall
  | called call => some call
  | _ => none

def message? : SessionEffect → Option ServerMessage
  | sent _ message => some message
  | _ => none

def phase? : SessionEffect → Option Phase
  | entered phase => some phase
  | _ => none

/-- The effects of one step: its store call comes before its messages, and those before a phase
that it enters. -/
def ofStep (reader : Option OutputStream) (calls : List StoreCall)
    (messages : List ServerMessage) (phases : List Phase) : List SessionEffect :=
  calls.map .called ++ messages.map (.sent reader) ++ phases.map .entered

end SessionEffect

/-- The stream whose reader acts. -/
def SessionEvent.reader? : SessionEvent → Option OutputStream
  | deliver stream => some stream
  | _ => none

namespace Session

variable {σ : Type} [SheetStore σ]

def effects (config : Config) (now : Int) (s : Session) (event : SessionEvent) (store : σ) :
    List SessionEffect :=
  let (after, journal) := s.step config now event ({ store } : Journal σ)
  SessionEffect.ofStep event.reader? journal.calls (after.sent.drop s.sent.length)
    (after.phases.drop s.phases.length)

/-- The effects of several steps. -/
def trace (config : Config) (now : Int) (s : Session) : List SessionEvent → σ → List SessionEffect
  | [], _ => []
  | event :: rest, store =>
      let (after, later) := s.step config now event store
      s.effects config now event store ++ trace config now after rest later

/-- Everything that a step can do: from a stage, with effects, to a stage. -/
inductive Move (config : Config) (sheet : SheetId) (playground : PlaygroundId) :
    Stage → List SessionEffect → Stage → Prop where
  | stay (stage : Stage) : Move config sheet playground stage [] stage
  | opened :
      Move config sheet playground .opening
        [.sent none (.output preparingLine), .entered .preparing] .loading
  | unloaded (error : StorageError) (text : String) (result : Except SessionError RunSummary) :
      Move config sheet playground .loading
        [.called (.loaded sheet playground (.error error)), .sent none (.output text),
          .entered .failed]
        (.finished result)
  | unplanned {loaded : Sheet} {error : SessionError}
      (bad : RunPlan.prepare config loaded.files = .error error) (text : String)
      (result : Except SessionError RunSummary) :
      Move config sheet playground .loading
        [.called (.loaded sheet playground (.ok loaded)), .sent none (.output text),
          .entered .failed]
        (.finished result)
  | extracted {loaded : Sheet} {plan : RunPlan} {graph : PipelineGraph}
      (planned : RunPlan.prepare config loaded.files = .ok plan)
      (before_run : plan.staticGraph = some graph) :
      Move config sheet playground .loading [.called (.loaded sheet playground (.ok loaded))]
        (.publishing plan graph)
  | planned {loaded : Sheet} {plan : RunPlan}
      (planned : RunPlan.prepare config loaded.files = .ok plan)
      (later : plan.staticGraph = none) :
      Move config sheet playground .loading
        [.called (.loaded sheet playground (.ok loaded)), .entered .uploading] (.uploading plan)
  | published (plan : RunPlan) (graph : PipelineGraph) :
      Move config sheet playground (.publishing plan graph)
        [.called (.saved sheet graph (.ok ())), .sent none (.graphReady sheet playground),
          .entered .uploading]
        (.uploading plan)
  | unpublished (plan : RunPlan) (graph : PipelineGraph) (error : StorageError) :
      Move config sheet playground (.publishing plan graph)
        [.called (.saved sheet graph (.error error)), .entered .uploading] (.uploading plan)
  | uploaded (plan : RunPlan) :
      Move config sheet playground (.uploading plan) [.entered .running] (.launching plan)
  | notUploaded (plan : RunPlan) (text : String) (result : Except SessionError RunSummary) :
      Move config sheet playground (.uploading plan)
        [.sent none (.output text), .entered .failed] (.finished result)
  | launched (plan : RunPlan) :
      Move config sheet playground (.launching plan) [.entered .draining]
        (.draining { output := accumulator plan })
  | notLaunched (plan : RunPlan) (text : String) (result : Except SessionError RunSummary) :
      Move config sheet playground (.launching plan)
        [.sent none (.output text), .entered .failed] (.finished result)
  | took (d : Drain) (stream : OutputStream) (octets : List UInt8) :
      Move config sheet playground (.draining d) []
        (.draining (d.setReader stream ((d.reader stream).read stream octets)))
  | closed (d : Drain) (stream : OutputStream) :
      Move config sheet playground (.draining d) []
        (.draining (d.setReader stream ((d.reader stream).close stream)))
  | exited (d : Drain) (exit : Option ExitStatus) :
      Move config sheet playground (.draining d) [] (.draining { d with exit })
  | forwarded {d : Drain} {stream : OutputStream} {text : List Char} {rest : List ReaderAction}
      (next : (d.reader stream).pending = .forward text :: rest) :
      Move config sheet playground (.draining d)
        [.sent (some stream) (.output (String.ofList text))] (.draining (d.setPending stream rest))
  | collected {d : Drain} {stream : OutputStream} {text : List Char} {rest : List ReaderAction}
      (next : (d.reader stream).pending = .collect text :: rest) :
      Move config sheet playground (.draining d) []
        (.draining ({ d with output := (d.output.append text).2 }.setPending stream
          (((d.output.append text).1.map ReaderAction.saveGraph).toList ++ rest)))
  | saved {d : Drain} {stream : OutputStream} {graph : PipelineGraph} {rest : List ReaderAction}
      (next : (d.reader stream).pending = .saveGraph graph :: rest) :
      Move config sheet playground (.draining d) [.called (.saved sheet graph (.ok ()))]
        (.draining (d.setPending stream (.announceGraph :: rest)))
  | notSaved {d : Drain} {stream : OutputStream} {graph : PipelineGraph}
      {rest : List ReaderAction} (next : (d.reader stream).pending = .saveGraph graph :: rest)
      (error : StorageError) :
      Move config sheet playground (.draining d) [.called (.saved sheet graph (.error error))]
        (.draining (d.setPending stream rest))
  | announced {d : Drain} {stream : OutputStream} {rest : List ReaderAction}
      (next : (d.reader stream).pending = .announceGraph :: rest) :
      Move config sheet playground (.draining d)
        [.sent (some stream) (.graphReady sheet playground)] (.draining (d.setPending stream rest))
  | wrappedUp (d : Drain) (text : String) (record : RunRecord) (graphEmitted : Bool) :
      Move config sheet playground (.draining d) [.sent none (.output text)]
        (.recording record graphEmitted)
  | recorded (record : RunRecord) (graphEmitted : Bool) (result : Except SessionError RunSummary) :
      Move config sheet playground (.recording record graphEmitted)
        [.called .other, .entered .completed] (.finished result)

/-- What is to know of a step: it does the same on a store with a journal, its calls, messages and
phases are added to those before, and it is a move. -/
structure StepSpec (config : Config) (now : Int) (s : Session) (event : SessionEvent) (store : σ)
    (calls : List StoreCall) (messages : List ServerMessage) (phases : List Phase) : Prop where
  journal : ∀ earlier, s.step config now event ({ store, calls := earlier } : Journal σ) =
    ((s.step config now event store).1,
      { store := (s.step config now event store).2, calls := earlier ++ calls })
  sent : (s.step config now event store).1.sent = s.sent ++ messages
  entered : (s.step config now event store).1.phases = s.phases ++ phases
  sheet : (s.step config now event store).1.sheet = s.sheet
  playground : (s.step config now event store).1.playground = s.playground
  move : Move config s.sheet s.playground s.stage
    (SessionEffect.ofStep event.reader? calls messages phases)
    (s.step config now event store).1.stage

section

variable {config : Config} {now : Int} {s s' : Session} {event : SessionEvent} {store : σ}
  {messages : List ServerMessage} {phases : List Phase}

/-- A step that makes one store call and goes on by its result. -/
theorem StepSpec.calling {α : Type} {op : StoreOp α} {result : Except StorageError α} {later : σ}
    (answer : SheetStore.apply op store = (result, later))
    (same : ∀ {τ : Type} [SheetStore τ] {store later : τ},
      SheetStore.apply op store = (result, later) → s.step config now event store = (s', later))
    (sent : s'.sent = s.sent ++ messages) (entered : s'.phases = s.phases ++ phases)
    (sheet : s'.sheet = s.sheet) (playground : s'.playground = s.playground)
    (move : Move config s.sheet s.playground s.stage
      (SessionEffect.ofStep event.reader? [.of op result] messages phases) s'.stage) :
    StepSpec config now s event store [.of op result] messages phases := by
  constructor
  · intro earlier
    rw [same answer, same (Journal.apply_of answer earlier)]
  all_goals rw [same answer]
  · exact sent
  · exact entered
  · exact sheet
  · exact playground
  · exact move

/-- A step that leaves the store alone. -/
theorem StepSpec.still
    (same : ∀ {τ : Type} [SheetStore τ] (store : τ), s.step config now event store = (s', store))
    (sent : s'.sent = s.sent ++ messages) (entered : s'.phases = s.phases ++ phases)
    (sheet : s'.sheet = s.sheet) (playground : s'.playground = s.playground)
    (move : Move config s.sheet s.playground s.stage
      (SessionEffect.ofStep event.reader? [] messages phases) s'.stage) :
    StepSpec config now s event store [] messages phases := by
  constructor
  · intro earlier
    rw [same, same, List.append_nil]
  all_goals rw [same]
  · exact sent
  · exact entered
  · exact sheet
  · exact playground
  · exact move

/-- A step that changes no more than the standard input. -/
theorem StepSpec.idle {stdin : StdinPort}
    (same : ∀ {τ : Type} [SheetStore τ] (store : τ),
      s.step config now event store = ({ s with stdin }, store)) :
    StepSpec config now s event store [] [] [] :=
  .still same (List.append_nil _).symm (List.append_nil _).symm rfl rfl (.stay _)

end

theorem load_spec (config : Config) (now : Int) {s : Session} (stage : s.stage = .loading)
    (store : σ) :
    ∃ calls messages phases, StepSpec config now s .proceed store calls messages phases := by
  cases answer : SheetStore.apply (.getSheet s.sheet s.playground) store with
  | mk result later =>
      cases result with
      | error error =>
          have same {τ : Type} [SheetStore τ] {store later : τ}
              (answer : SheetStore.apply (.getSheet s.sheet s.playground) store =
                (.error error, later)) :
              s.step config now .proceed store = (s.fail (.ofStorage error), later) := by
            simp only [step, proceed, stage, answer]
          exact ⟨_, _, _, .calling answer same rfl rfl rfl rfl (stage ▸ .unloaded error _ _)⟩
      | ok loaded =>
          have same {τ : Type} [SheetStore τ] {store later : τ}
              (answer : SheetStore.apply (.getSheet s.sheet s.playground) store =
                (.ok loaded, later)) :
              s.step config now .proceed store = (s.plan config loaded, later) := by
            simp only [step, proceed, stage, answer]
          cases planned : RunPlan.prepare config loaded.files with
          | error error =>
              simp only [Session.plan, planned] at same
              exact ⟨_, _, _, .calling answer same rfl rfl rfl rfl (stage ▸ .unplanned planned _ _)⟩
          | ok plan =>
              cases extracted : plan.staticGraph with
              | some graph =>
                  simp only [Session.plan, planned, extracted] at same
                  exact ⟨_, _, _, .calling answer same (List.append_nil _).symm
                    (List.append_nil _).symm rfl rfl (stage ▸ .extracted planned extracted)⟩
              | none =>
                  simp only [Session.plan, planned, extracted] at same
                  exact ⟨_, _, _, .calling answer same (List.append_nil _).symm rfl rfl rfl
                    (stage ▸ .planned planned extracted)⟩

theorem publish_spec (config : Config) (now : Int) {s : Session} {plan : RunPlan}
    {graph : PipelineGraph} (stage : s.stage = .publishing plan graph) (store : σ) :
    ∃ calls messages phases, StepSpec config now s .proceed store calls messages phases := by
  cases answer : SheetStore.apply (.saveGraph s.sheet graph) store with
  | mk result later =>
      cases result with
      | error error =>
          have same {τ : Type} [SheetStore τ] {store later : τ}
              (answer : SheetStore.apply (.saveGraph s.sheet graph) store = (.error error, later)) :
              s.step config now .proceed store = (s.startUploading plan, later) := by
            simp [step, proceed, stage, storeGraph, answer]
          exact ⟨_, _, _, .calling answer same (List.append_nil _).symm rfl rfl rfl
            (stage ▸ .unpublished plan graph error)⟩
      | ok =>
          have same {τ : Type} [SheetStore τ] {store later : τ}
              (answer : SheetStore.apply (.saveGraph s.sheet graph) store = (.ok (), later)) :
              s.step config now .proceed store = (s.announceGraph.startUploading plan, later) := by
            simp [step, proceed, stage, storeGraph, answer]
          exact ⟨_, _, _, .calling answer same rfl rfl rfl rfl (stage ▸ .published plan graph)⟩

theorem proceed_spec (config : Config) (now : Int) (s : Session) (store : σ) :
    ∃ calls messages phases, StepSpec config now s .proceed store calls messages phases := by
  cases stage : s.stage with
  | opening =>
      have same {τ : Type} [SheetStore τ] (store : τ) : s.step config now .proceed store =
          (((s.enter .preparing).send (.output preparingLine)).moveTo .loading, store) := by
        simp only [step, proceed, stage]
      exact ⟨_, _, _, .still same rfl rfl rfl rfl (stage ▸ .opened)⟩
  | loading => exact load_spec config now stage store
  | publishing plan graph => exact publish_spec config now stage store
  | draining d =>
      cases ended : d.finished? with
      | none =>
          have same {τ : Type} [SheetStore τ] (store : τ) :
              s.step config now .proceed store = (s, store) := by
            simp only [step, proceed, stage, ended]
          exact ⟨_, _, _, .idle same⟩
      | some status =>
          have same {τ : Type} [SheetStore τ] (store : τ) :
              s.step config now .proceed store = (s.wrapUp d status, store) := by
            simp only [step, proceed, stage, ended]
          exact ⟨_, _, _, .still same rfl (List.append_nil _).symm rfl rfl
            (stage ▸ .wrappedUp d _ _ _)⟩
  | recording record graphEmitted =>
      cases answer : SheetStore.apply (.insertRun now record) store with
      | mk result later =>
          have same {τ : Type} [SheetStore τ] {store later : τ}
              (answer : SheetStore.apply (.insertRun now record) store = (result, later)) :
              s.step config now .proceed store =
                (s.complete { exitCode := record.exitCode, run := result.toOption, graphEmitted },
                  later) := by
            simp only [step, proceed, stage, answer]
          exact ⟨_, _, _, .calling answer same (List.append_nil _).symm rfl rfl rfl
            (stage ▸ .recorded record graphEmitted _)⟩
  | uploading _ | launching _ | finished _ =>
      have same {τ : Type} [SheetStore τ] (store : τ) :
          s.step config now .proceed store = (s, store) := by
        simp only [step, proceed, stage]
      exact ⟨_, _, _, .idle same⟩

/-- A reader saves a graph. -/
theorem save_spec (config : Config) (now : Int) {s : Session} {d : Drain} {stream : OutputStream}
    {graph : PipelineGraph} {rest : List ReaderAction} (stage : s.stage = .draining d)
    (next : (d.reader stream).pending = .saveGraph graph :: rest) (store : σ) :
    ∃ calls messages phases,
      StepSpec config now s (.deliver stream) store calls messages phases := by
  cases answer : SheetStore.apply (.saveGraph s.sheet graph) store with
  | mk result later =>
      cases result with
      | error error =>
          have same {τ : Type} [SheetStore τ] {store later : τ}
              (answer : SheetStore.apply (.saveGraph s.sheet graph) store = (.error error, later)) :
              s.step config now (.deliver stream) store =
                (s.moveTo (.draining (d.setPending stream rest)), later) := by
            simp [step, stage, deliver, next, storeGraph, answer]
          exact ⟨_, _, _, .calling answer same (List.append_nil _).symm (List.append_nil _).symm
            rfl rfl (stage ▸ .notSaved next error)⟩
      | ok =>
          have same {τ : Type} [SheetStore τ] {store later : τ}
              (answer : SheetStore.apply (.saveGraph s.sheet graph) store = (.ok (), later)) :
              s.step config now (.deliver stream) store =
                (s.moveTo (.draining (d.setPending stream (.announceGraph :: rest))), later) := by
            simp [step, stage, deliver, next, storeGraph, answer]
          exact ⟨_, _, _, .calling answer same (List.append_nil _).symm (List.append_nil _).symm
            rfl rfl (stage ▸ .saved next)⟩

theorem deliver_spec (config : Config) (now : Int) {s : Session} {d : Drain}
    (stage : s.stage = .draining d) (stream : OutputStream) (store : σ) :
    ∃ calls messages phases,
      StepSpec config now s (.deliver stream) store calls messages phases := by
  have step_eq {τ : Type} [SheetStore τ] (store : τ) :
      s.step config now (.deliver stream) store = s.deliver d stream store := by
    simp only [step, stage]
  cases next : (d.reader stream).pending with
  | nil =>
      have same {τ : Type} [SheetStore τ] (store : τ) :
          s.step config now (.deliver stream) store = (s, store) := by
        simp only [step_eq, deliver, next]
      exact ⟨_, _, _, .idle same⟩
  | cons action rest =>
      cases action with
      | forward text =>
          have same {τ : Type} [SheetStore τ] (store : τ) :
              s.step config now (.deliver stream) store =
                ((s.send (.output (String.ofList text))).moveTo
                  (.draining (d.setPending stream rest)), store) := by
            simp only [step_eq, deliver, next]
          exact ⟨_, _, _, .still same rfl (List.append_nil _).symm rfl rfl
            (stage ▸ .forwarded next)⟩
      | collect text =>
          have same {τ : Type} [SheetStore τ] (store : τ) :
              s.step config now (.deliver stream) store =
                (s.moveTo (.draining
                  ({ d with output := (d.output.append text).2 }.setPending stream
                    (((d.output.append text).1.map ReaderAction.saveGraph).toList ++ rest))),
                  store) := by
            simp only [step_eq, deliver, next]
          exact ⟨_, _, _, .still same (List.append_nil _).symm (List.append_nil _).symm rfl rfl
            (stage ▸ .collected next)⟩
      | saveGraph graph => exact save_spec config now stage next store
      | announceGraph =>
          have same {τ : Type} [SheetStore τ] (store : τ) :
              s.step config now (.deliver stream) store =
                (s.announceGraph.moveTo (.draining (d.setPending stream rest)), store) := by
            simp only [step_eq, deliver, next]
          exact ⟨_, _, _, .still same rfl (List.append_nil _).symm rfl rfl
            (stage ▸ .announced next)⟩

theorem setUp_spec (config : Config) (now : Int) (s : Session) (outcome : Except SetupFailure Unit)
    (store : σ) :
    ∃ calls messages phases,
      StepSpec config now s (.setUp outcome) store calls messages phases := by
  have same {τ : Type} [SheetStore τ] (store : τ) :
      s.step config now (.setUp outcome) store = (s.setUp config outcome, store) := rfl
  cases stage : s.stage with
  | uploading plan =>
      obtain (_ | error) | _ := outcome
      · simp only [setUp, stage] at same
        exact ⟨_, _, _, .still same rfl rfl rfl rfl (stage ▸ .notUploaded plan _ _)⟩
      · simp only [setUp, stage] at same
        exact ⟨_, _, _, .still same rfl rfl rfl rfl (stage ▸ .notUploaded plan _ _)⟩
      · simp only [setUp, stage] at same
        exact ⟨_, _, _, .still same (List.append_nil _).symm rfl rfl rfl (stage ▸ .uploaded plan)⟩
  | opening | loading | publishing _ _ | launching _ | draining _ | recording _ _ | finished _ =>
      simp only [setUp, stage] at same
      exact ⟨_, _, _, .idle same⟩

theorem started_spec (config : Config) (now : Int) (s : Session)
    (outcome : Except WorkerError Unit) (store : σ) :
    ∃ calls messages phases,
      StepSpec config now s (.started outcome) store calls messages phases := by
  have same {τ : Type} [SheetStore τ] (store : τ) :
      s.step config now (.started outcome) store = (s.started outcome, store) := rfl
  cases stage : s.stage with
  | launching plan =>
      obtain error | _ := outcome
      · simp only [started, stage] at same
        exact ⟨_, _, _, .still same rfl rfl rfl rfl (stage ▸ .notLaunched plan _ _)⟩
      · simp only [started, stage] at same
        exact ⟨_, _, _, .still same (List.append_nil _).symm rfl rfl rfl (stage ▸ .launched plan)⟩
  | opening | loading | publishing _ _ | uploading _ | draining _ | recording _ _ | finished _ =>
      simp only [started, stage] at same
      exact ⟨_, _, _, .idle same⟩

/-- An event that changes the drain and has no effects. -/
theorem modifyDrain_spec (config : Config) (now : Int) (s : Session) {event : SessionEvent}
    {f : Drain → Drain}
    (same : ∀ {τ : Type} [SheetStore τ] (store : τ),
      s.step config now event store = (s.modifyDrain f, store))
    (move : ∀ d, Move config s.sheet s.playground (.draining d) [] (.draining (f d))) (store : σ) :
    ∃ calls messages phases, StepSpec config now s event store calls messages phases := by
  cases stage : s.stage with
  | draining d =>
      simp only [modifyDrain, stage] at same
      exact ⟨_, _, _, .still same (List.append_nil _).symm (List.append_nil _).symm rfl rfl
        (stage ▸ move d)⟩
  | opening | loading | publishing _ _ | uploading _ | launching _ | recording _ _ | finished _ =>
      simp only [modifyDrain, stage] at same
      exact ⟨_, _, _, .idle same⟩

theorem exists_stepSpec (config : Config) (now : Int) (s : Session) (event : SessionEvent)
    (store : σ) :
    ∃ calls messages phases, StepSpec config now s event store calls messages phases := by
  cases event with
  | proceed => exact proceed_spec config now s store
  | setUp outcome => exact setUp_spec config now s outcome store
  | started outcome => exact started_spec config now s outcome store
  | read stream octets =>
      exact modifyDrain_spec config now s (fun _ => rfl) (fun d => .took d stream octets) store
  | close stream =>
      exact modifyDrain_spec config now s (fun _ => rfl) (fun d => .closed d stream) store
  | deliver stream =>
      cases stage : s.stage with
      | draining d => exact deliver_spec config now stage stream store
      | opening | loading | publishing _ _ | uploading _ | launching _ | recording _ _
      | finished _ =>
          have same {τ : Type} [SheetStore τ] (store : τ) :
              s.step config now (.deliver stream) store = (s, store) := by
            simp only [step, stage]
          exact ⟨_, _, _, .idle same⟩
  | exited status =>
      exact modifyDrain_spec config now s (fun _ => rfl) (fun d => .exited d _) store
  | input text | stdinWritten | stdinFailed octets => exact ⟨_, _, _, .idle fun _ => rfl⟩

section

variable {config : Config} {now : Int} {s : Session} {event : SessionEvent} {store : σ}
  {calls : List StoreCall} {messages : List ServerMessage} {phases : List Phase}

theorem StepSpec.effects_eq (h : StepSpec config now s event store calls messages phases) :
    s.effects config now event store =
      SessionEffect.ofStep event.reader? calls messages phases := by
  have journal := h.journal []
  rw [List.nil_append] at journal
  simp only [effects, journal, h.sent, h.entered, List.drop_left]

end

section

variable (reader : Option OutputStream) (calls : List StoreCall) (messages : List ServerMessage)
  (phases : List Phase)

theorem filterMap_call?_ofStep :
    (SessionEffect.ofStep reader calls messages phases).filterMap SessionEffect.call? = calls := by
  simp [SessionEffect.ofStep, List.filterMap_map, Function.comp_def, SessionEffect.call?]

theorem filterMap_message?_ofStep :
    (SessionEffect.ofStep reader calls messages phases).filterMap SessionEffect.message? =
      messages := by
  simp [SessionEffect.ofStep, List.filterMap_map, Function.comp_def, SessionEffect.message?]

theorem filterMap_phase?_ofStep :
    (SessionEffect.ofStep reader calls messages phases).filterMap SessionEffect.phase? =
      phases := by
  simp [SessionEffect.ofStep, List.filterMap_map, Function.comp_def, SessionEffect.phase?]

end

/-- The effects of a run are what the store was called with, what the client was sent and the
phases entered; a store that keeps a journal changes nothing else. -/
theorem steps_trace (config : Config) (now : Int) (s : Session) (events : List SessionEvent)
    (store : σ) :
    let t := s.trace config now events store
    let after := s.steps config now events store
    (∀ earlier, s.steps config now events ({ store, calls := earlier } : Journal σ) =
        (after.1, { store := after.2, calls := earlier ++ t.filterMap SessionEffect.call? })) ∧
      after.1.sent = s.sent ++ t.filterMap SessionEffect.message? ∧
      after.1.phases = s.phases ++ t.filterMap SessionEffect.phase? := by
  induction events generalizing s store with
  | nil => simp [trace, steps]
  | cons event rest ih =>
      obtain ⟨calls, messages, phases, h⟩ := exists_stepSpec config now s event store
      obtain ⟨journal, sent, entered⟩ := ih (s.step config now event store).1
        (s.step config now event store).2
      simp only [trace, steps, h.effects_eq, List.filterMap_append, filterMap_call?_ofStep,
        filterMap_message?_ofStep, filterMap_phase?_ofStep]
      refine ⟨?_, ?_, ?_⟩
      · intro earlier
        rw [h.journal, journal, List.append_assoc]
      · rw [sent, h.sent, List.append_assoc]
      · rw [entered, h.entered, List.append_assoc]

/-- What every move keeps holds of the effects of every run. -/
theorem trace_invariant {config : Config} {sheet : SheetId} {playground : PlaygroundId}
    {P : List SessionEffect → Stage → Prop}
    (keeps : ∀ {t stage effects stage'}, Move config sheet playground stage effects stage' →
      P t stage → P (t ++ effects) stage')
    (now : Int) {s : Session} (same_sheet : s.sheet = sheet)
    (same_playground : s.playground = playground) {t : List SessionEffect} (start : P t s.stage)
    (events : List SessionEvent) (store : σ) :
    P (t ++ s.trace config now events store) (s.steps config now events store).1.stage := by
  induction events generalizing s t store with
  | nil => simpa [trace, steps] using start
  | cons event rest ih =>
      obtain ⟨calls, messages, phases, h⟩ := exists_stepSpec config now s event store
      have move := h.move
      rw [same_sheet, same_playground, ← h.effects_eq] at move
      have next := ih (h.sheet.trans same_sheet) (h.playground.trans same_playground)
        (keeps move start) (s.step config now event store).2
      rw [List.append_assoc] at next
      exact next

end Session

end AgentWorkbench
