import AgentWorkbench.Proofs.Session.Effects
import AgentWorkbench.Proofs.Session.Output
import AgentWorkbench.Proofs.Text.Lossy
import AgentWorkbench.Store.InMemory

/-!
What a session records of a run. The record is a function of the sheet, of the octets that the
process wrote to its standard output, and of how it ended: how the octets were cut into reads, what
came on the standard error stream, and in which order the readers acted makes no difference.
-/
namespace AgentWorkbench

open OutputAccumulator

def StoreOp.run? : {α : Type} → StoreOp α → Option RunRecord
  | _, .insertRun _ run => some run
  | _, _ => none

/-- A store and the runs that it was asked to add, in order. -/
structure RunLedger (σ : Type) where
  store : σ
  runs : List RunRecord := []

instance {σ : Type} [SheetStore σ] : SheetStore (RunLedger σ) where
  apply op ledger :=
    let (result, store) := SheetStore.apply op ledger.store
    (result, { store, runs := ledger.runs ++ op.run?.toList })

theorem RunLedger.runs_apply {σ α : Type} [SheetStore σ] (op : StoreOp α)
    (ledger : RunLedger σ) :
    (SheetStore.apply op ledger).2.runs = ledger.runs ++ op.run?.toList := rfl

/-- The record of a run by what the process wrote and how it ended. -/
def RunRecord.ofOutput (sheet : SheetId) (octets : List UInt8) (status : ExitStatus) :
    RunRecord where
  sheet := sheet
  output := String.ofList (Text.trim (Frame.strip .timings (Frame.strip .graph
    (Text.Utf8.lossy octets))))
  timings := extractFrame decodeTimings .timings (Text.Utf8.lossy octets)
  exitCode := status.code?

/-- The text that a reader has still to collect. -/
def collecting (pending : List ReaderAction) : List Char :=
  pending.flatMap fun
    | .collect text => text
    | _ => []

theorem collecting_deliveries (stream : OutputStream) (text : List Char) :
    collecting (ReaderTask.deliveries stream text) =
      match stream with
      | .stdout => text
      | .stderr => [] := by
  cases text <;> cases stream <;> simp [ReaderTask.deliveries, collecting]

/-- The stages before a process is started. -/
def Stage.isEarly : Stage → Bool
  | opening | loading | publishing _ _ | uploading _ | launching _ => true
  | _ => false

namespace Session

variable {σ : Type} [SheetStore σ]

/-- The octets of the standard output that a session takes with an event. -/
def octetsTaken (s : Session) : SessionEvent → List UInt8
  | .read .stdout octets =>
    match s.stage with
    | .draining d => if d.stdout.isIdle then octets else []
    | _ => []
  | _ => []

/-- The end of the process that a session learns with an event. -/
def exitTaken (s : Session) : SessionEvent → Option ExitStatus
  | .exited status =>
    match s.stage with
    | .draining _ => some status
    | _ => none
  | _ => none

/-- All octets of the standard output that the session reads. -/
def stdoutRead (config : Config) (now : Int) (s : Session) : List SessionEvent → σ → List UInt8
  | [], _ => []
  | event :: rest, store =>
    let (after, later) := s.step config now event store
    s.octetsTaken event ++ stdoutRead config now after rest later

/-- How the process ended, as far as the session learns it. -/
def exitReported (config : Config) (now : Int) (s : Session) :
    List SessionEvent → σ → Option ExitStatus
  | [], _ => none
  | event :: rest, store =>
    let (after, later) := s.step config now event store
    (s.exitTaken event).or (exitReported config now after rest later)

/-- What a reader has read is in the buffer, or is text that it has still to collect, or is held by
its decoder. -/
structure Collected (r : ReaderTask) (buffer : List Char) (octets : List UInt8) : Prop where
  reading : r.ended = false →
    Text.Utf8.Decoder.decode {} octets = (buffer ++ collecting r.pending, r.decoder)
  settled : r.ended = true → Text.Utf8.lossy octets = buffer ++ collecting r.pending

/-- The output so far is what was read of the standard output; of the other stream nothing is ever
collected. -/
structure Drained (d : Drain) (octets : List UInt8) : Prop where
  stdout : Collected d.stdout d.output.buffer octets
  stderr : collecting d.stderr.pending = []

/-- Nothing is known of a process, as none has been started. -/
structure NotStarted (phases : List Phase) (octets : List UInt8) (exit : Option ExitStatus)
    (runs : List RunRecord) : Prop where
  not_entered : Phase.draining ∉ phases
  octets_eq : octets = []
  exit_eq : exit = none
  runs_eq : runs = []

/-- What a session knows of its process and what it has recorded, by its stage. -/
def Accounted (s : Session) (octets : List UInt8) (exit : Option ExitStatus)
    (runs : List RunRecord) : Prop :=
  match s.stage with
  | .draining d => Drained d octets ∧ d.exit = exit ∧ runs = []
  | .recording record _ =>
      (∃ status, exit = some status ∧ record = .ofOutput s.sheet octets status) ∧ runs = []
  | .finished (.ok _) =>
      ∃ status, exit = some status ∧ runs = [.ofOutput s.sheet octets status]
  | _ => NotStarted s.phases octets exit runs

section

variable {r : ReaderTask} {d : Drain} {buffer : List Char} {octets : List UInt8}
  {stream : OutputStream}

theorem isIdle_iff : r.isIdle = true ↔ r.pending = [] ∧ r.ended = false := by
  simp [ReaderTask.isIdle]

theorem Collected.read (h : Collected r buffer octets) (more : List UInt8) :
    Collected (r.read .stdout more) buffer (octets ++ if r.isIdle then more else []) := by
  rw [ReaderTask.read]
  split
  · next idle =>
      obtain ⟨nothing, reading⟩ := isIdle_iff.mp idle
      have so_far := h.reading reading
      rw [nothing] at so_far
      refine ⟨fun _ => ?_, fun ended => ?_⟩
      · rw [Text.Utf8.Decoder.decode_append, so_far, collecting_deliveries]
        simp [collecting]
      · simp [reading] at ended
  · simpa using h

theorem Collected.close (h : Collected r buffer octets) :
    Collected (r.close .stdout) buffer octets := by
  rw [ReaderTask.close]
  split
  · next idle =>
      obtain ⟨nothing, reading⟩ := isIdle_iff.mp idle
      have so_far := h.reading reading
      rw [nothing] at so_far
      refine ⟨fun reading => ?_, fun _ => ?_⟩
      · simp at reading
      · rw [← Text.Utf8.decodeLossy_eq_lossy, Text.Utf8.decodeLossy, so_far,
          collecting_deliveries]
        simp [collecting]
  · exact h

/-- The reader goes on to other actions, and the buffer to hold what they no longer collect. -/
theorem Collected.next (h : Collected r buffer octets) {buffer' : List Char}
    {pending : List ReaderAction}
    (same : buffer' ++ collecting pending = buffer ++ collecting r.pending) :
    Collected { r with pending } buffer' octets :=
  ⟨fun reading => by rw [h.reading reading, same], fun ended => by rw [h.settled ended, same]⟩

theorem collecting_read_stderr (nothing : collecting r.pending = []) (more : List UInt8) :
    collecting (r.read .stderr more).pending = [] := by
  rw [ReaderTask.read]
  split
  · exact collecting_deliveries .stderr _
  · exact nothing

theorem collecting_close_stderr (nothing : collecting r.pending = []) :
    collecting (r.close .stderr).pending = [] := by
  rw [ReaderTask.close]
  split
  · exact collecting_deliveries .stderr _
  · exact nothing

theorem Drained.read_stdout (h : Drained d octets) (more : List UInt8) :
    Drained { d with stdout := d.stdout.read .stdout more }
      (octets ++ if d.stdout.isIdle then more else []) :=
  ⟨h.stdout.read more, h.stderr⟩

theorem Drained.read_stderr (h : Drained d octets) (more : List UInt8) :
    Drained { d with stderr := d.stderr.read .stderr more } octets :=
  ⟨h.stdout, collecting_read_stderr h.stderr more⟩

theorem Drained.close (h : Drained d octets) :
    Drained (d.setReader stream ((d.reader stream).close stream)) octets := by
  cases stream with
  | stdout => exact ⟨h.stdout.close, h.stderr⟩
  | stderr => exact ⟨h.stdout, collecting_close_stderr h.stderr⟩

/-- A reader does an action that collects nothing. -/
theorem Drained.pass (h : Drained d octets) {pending : List ReaderAction}
    (same : collecting pending = collecting (d.reader stream).pending) :
    Drained (d.setPending stream pending) octets := by
  cases stream with
  | stdout => exact ⟨h.stdout.next (congrArg (d.output.buffer ++ ·) same), h.stderr⟩
  | stderr => exact ⟨h.stdout, same.trans h.stderr⟩

/-- A reader collects a text. -/
theorem Drained.collect (h : Drained d octets) {text : List Char} {rest : List ReaderAction}
    (next : (d.reader stream).pending = .collect text :: rest) :
    Drained ({ d with output := (d.output.append text).2 }.setPending stream
      (((d.output.append text).1.map ReaderAction.saveGraph).toList ++ rest)) octets := by
  have to_collect : collecting (.collect text :: rest) = text ++ collecting rest := rfl
  have found_collects (found : Option PipelineGraph) :
      collecting ((found.map ReaderAction.saveGraph).toList ++ rest) = collecting rest := by
    cases found <;> rfl
  cases stream with
  | stdout =>
      have to_do : d.stdout.pending = .collect text :: rest := next
      have same : (d.output.append text).2.buffer ++
            collecting (((d.output.append text).1.map ReaderAction.saveGraph).toList ++ rest) =
          d.output.buffer ++ collecting d.stdout.pending := by
        rw [append_buffer, found_collects, to_do, to_collect, List.append_assoc]
      exact ⟨h.stdout.next same, h.stderr⟩
  | stderr =>
      have nothing : collecting (.collect text :: rest) = [] := by
        rw [← h.stderr]
        exact congrArg collecting next.symm
      obtain ⟨no_text, nothing⟩ := List.append_eq_nil_iff.mp (to_collect ▸ nothing)
      have same_buffer : (d.output.append text).2.buffer = d.output.buffer := by
        rw [append_buffer, no_text, List.append_nil]
      have same_stdout : Collected d.stdout (d.output.append text).2.buffer octets :=
        same_buffer ▸ h.stdout
      exact ⟨same_stdout, (found_collects _).trans nothing⟩

/-- Once both readers are done, the buffer is the text of all octets. -/
theorem Drained.buffer_eq (h : Drained d octets) {status : ExitStatus}
    (ended : d.finished? = some status) :
    d.exit = some status ∧ d.output.buffer = Text.Utf8.lossy octets := by
  simp only [Drain.finished?, ReaderTask.isDone, Bool.and_eq_true, List.isEmpty_iff,
    Option.ite_none_right_eq_some] at ended
  obtain ⟨⟨⟨idle, closed⟩, -⟩, exit⟩ := ended
  refine ⟨exit, ?_⟩
  rw [h.stdout.settled closed, idle]
  exact (List.append_nil _).symm

end

section

variable {s s' : Session} {octets : List UInt8} {exit : Option ExitStatus}
  {runs : List RunRecord} {d : Drain}

theorem accounted_draining (stage : s.stage = .draining d) :
    Accounted s octets exit runs ↔ Drained d octets ∧ d.exit = exit ∧ runs = [] := by
  rw [Accounted, stage]

theorem accounted_early (early : s.stage.isEarly = true) :
    Accounted s octets exit runs ↔ NotStarted s.phases octets exit runs := by
  rw [Accounted]
  cases stage : s.stage with
  | opening | loading | publishing _ _ | uploading _ | launching _ => rfl
  | draining _ | recording _ _ | finished _ =>
      rw [stage] at early
      contradiction

theorem accounted_completed {summary : RunSummary} (stage : s.stage = .finished (.ok summary)) :
    Accounted s octets exit runs ↔
      ∃ status, exit = some status ∧ runs = [.ofOutput s.sheet octets status] := by
  rw [Accounted, stage]

theorem accounted_failed {error : SessionError} (stage : s.stage = .finished (.error error)) :
    Accounted s octets exit runs ↔ NotStarted s.phases octets exit runs := by
  rw [Accounted, stage]

/-- A session that enters no phase, or another one, stays without a process. -/
theorem NotStarted.enter {before : List Phase} (h : NotStarted before octets exit runs)
    {phases : List Phase} (other : Phase.draining ∉ phases) :
    NotStarted (before ++ phases) octets exit runs :=
  { h with not_entered := fun mem => (List.mem_append.mp mem).elim h.not_entered other }

theorem NotStarted.fail (h : NotStarted s.phases octets exit runs) (error : SessionError) :
    Accounted (s.fail error) octets exit runs :=
  (accounted_failed rfl).mpr (h.enter (by decide))

theorem NotStarted.startUploading (h : NotStarted s.phases octets exit runs) (plan : RunPlan) :
    Accounted (s.startUploading plan) octets exit runs :=
  (accounted_early rfl).mpr (h.enter (by decide))

theorem NotStarted.plan (h : NotStarted s.phases octets exit runs) (config : Config)
    (sheet : Sheet) : Accounted (s.plan config sheet) octets exit runs := by
  rw [Session.plan]
  split
  · exact h.fail _
  · split
    · exact (accounted_early rfl).mpr h
    · exact h.startUploading _

theorem accounted_setUp (config : Config) (h : Accounted s octets exit runs)
    (outcome : Except SetupFailure Unit) :
    Accounted (s.setUp config outcome) octets exit runs := by
  cases stage : s.stage with
  | uploading plan =>
      rw [accounted_early (by rw [stage]; rfl)] at h
      obtain (_ | error) | _ := outcome
      · simpa only [setUp, stage] using h.fail _
      · simpa only [setUp, stage] using h.fail _
      · simp only [setUp, stage]
        exact (accounted_early rfl).mpr (h.enter (by decide))
  | opening | loading | publishing _ _ | launching _ | draining _ | recording _ _ | finished _ =>
      simpa only [setUp, stage] using h

theorem accounted_started (h : Accounted s octets exit runs)
    (outcome : Except WorkerError Unit) :
    Accounted (s.started outcome) octets exit runs := by
  cases stage : s.stage with
  | launching plan =>
      rw [accounted_early (by rw [stage]; rfl)] at h
      obtain error | _ := outcome
      · simpa only [started, stage] using h.fail _
      · simp only [started, stage]
        refine (accounted_draining rfl).mpr ⟨?_, h.exit_eq.symm, h.runs_eq⟩
        have empty : (accumulator plan).buffer = [] := by
          rw [accumulator]
          split <;> split <;> rfl
        rw [h.octets_eq]
        exact ⟨⟨fun _ => by rw [empty]; rfl, fun ended => by simp at ended⟩, rfl⟩
  | opening | loading | publishing _ _ | uploading _ | draining _ | recording _ _ | finished _ =>
      simpa only [started, stage] using h

end

section

variable (config : Config) (now : Int) {s : Session} {octets : List UInt8}
  {exit : Option ExitStatus} {ledger : RunLedger σ}

/-- No step but the last one of a session adds a run. -/
theorem runs_storeGraph (s : Session) (graph : PipelineGraph) (ledger : RunLedger σ) :
    (s.storeGraph graph ledger).2.runs = ledger.runs := by
  have same := RunLedger.runs_apply (.saveGraph s.sheet graph) ledger
  rw [storeGraph]
  split <;> next answer => rw [answer] at same; exact same.trans (List.append_nil _)

theorem accounted_proceed (h : Accounted s octets exit ledger.runs) :
    let after := s.proceed config now ledger
    Accounted after.1 octets exit after.2.runs := by
  cases stage : s.stage with
  | opening =>
      simp only [proceed, stage]
      rw [accounted_early (by rw [stage]; rfl)] at h
      exact (accounted_early rfl).mpr (h.enter (by decide))
  | loading =>
      rw [accounted_early (by rw [stage]; rfl)] at h
      have same := RunLedger.runs_apply (.getSheet s.sheet s.playground) ledger
      rw [show StoreOp.run? (.getSheet s.sheet s.playground) = none from rfl, Option.toList_none,
        List.append_nil] at same
      simp only [proceed, stage]
      split
      · next answer =>
          rw [answer] at same
          exact same ▸ h.plan config _
      · next answer =>
          rw [answer] at same
          exact same ▸ h.fail _
  | publishing plan graph =>
      rw [accounted_early (by rw [stage]; rfl)] at h
      simp only [proceed, stage, runs_storeGraph]
      split
      · exact NotStarted.startUploading h plan
      · exact h.startUploading plan
  | draining d =>
      obtain ⟨drained, exit_eq, none_added⟩ := (accounted_draining stage).mp h
      simp only [proceed, stage]
      split
      · next status ended =>
          obtain ⟨exited, buffer_eq⟩ := drained.buffer_eq ended
          refine ⟨⟨status, exit_eq.symm.trans exited, ?_⟩, none_added⟩
          simp only [record, RunRecord.ofOutput, output, timings, buffer_eq]
          rfl
      · exact h
  | recording record graphEmitted =>
      rw [Accounted, stage] at h
      obtain ⟨⟨status, exited, record_eq⟩, none_added⟩ := h
      have added := RunLedger.runs_apply (.insertRun now record) ledger
      simp only [proceed, stage]
      refine ⟨status, exited, ?_⟩
      rw [added, none_added, record_eq]
      rfl
  | uploading _ | launching _ | finished _ => simpa only [proceed, stage] using h

theorem accounted_deliver (h : Accounted s octets exit ledger.runs) {d : Drain}
    (stage : s.stage = .draining d) (stream : OutputStream) :
    let after := s.deliver d stream ledger
    Accounted after.1 octets exit after.2.runs := by
  obtain ⟨drained, exit_eq, none_added⟩ := (accounted_draining stage).mp h
  have exit_kept (pending : List ReaderAction) : (d.setPending stream pending).exit = exit := by
    cases stream <;> exact exit_eq
  rw [deliver]
  split
  · exact h
  · next text rest next =>
      have same : collecting rest = collecting (d.reader stream).pending := by rw [next]; rfl
      exact (accounted_draining rfl).mpr ⟨drained.pass same, exit_kept _, none_added⟩
  · next text rest next =>
      refine (accounted_draining rfl).mpr ⟨drained.collect next, ?_, none_added⟩
      cases stream <;> exact exit_eq
  · next graph rest next =>
      have same : collecting (if (s.storeGraph graph ledger).1 then .announceGraph :: rest
          else rest) = collecting (d.reader stream).pending := by
        rw [next]
        split <;> rfl
      refine (accounted_draining rfl).mpr ⟨drained.pass same, exit_kept _, ?_⟩
      rw [runs_storeGraph, none_added]
  · next rest next =>
      have same : collecting rest = collecting (d.reader stream).pending := by rw [next]; rfl
      exact (accounted_draining rfl).mpr ⟨drained.pass same, exit_kept _, none_added⟩

/-- What a session knows of its process and has recorded, after any event. -/
theorem accounted_step (h : Accounted s octets exit ledger.runs) (event : SessionEvent) :
    let after := s.step config now event ledger
    Accounted after.1 (octets ++ s.octetsTaken event) (exit.or (s.exitTaken event))
      after.2.runs := by
  have nothing_taken (same : Accounted (s.step config now event ledger).1 octets exit
      (s.step config now event ledger).2.runs) (no_octets : s.octetsTaken event = [])
      (no_exit : s.exitTaken event = none) :
      Accounted (s.step config now event ledger).1 (octets ++ s.octetsTaken event)
        (exit.or (s.exitTaken event)) (s.step config now event ledger).2.runs := by
    rwa [no_octets, no_exit, List.append_nil, Option.or_none]
  cases event with
  | proceed => exact nothing_taken (accounted_proceed config now h) rfl rfl
  | setUp outcome => exact nothing_taken (accounted_setUp config h outcome) rfl rfl
  | started outcome => exact nothing_taken (accounted_started h outcome) rfl rfl
  | input _ | stdinWritten | stdinFailed _ => exact nothing_taken h rfl rfl
  | read stream more =>
      cases stage : s.stage with
      | draining d =>
          obtain ⟨drained, exit_eq, none_added⟩ := (accounted_draining stage).mp h
          simp only [step, modifyDrain, stage, exitTaken, Option.or_none]
          refine (accounted_draining rfl).mpr ?_
          cases stream with
          | stdout =>
              simp only [octetsTaken, stage]
              exact ⟨drained.read_stdout more, exit_eq, none_added⟩
          | stderr =>
              rw [show s.octetsTaken (.read .stderr more) = [] from rfl, List.append_nil]
              exact ⟨drained.read_stderr more, exit_eq, none_added⟩
      | opening | loading | publishing _ _ | uploading _ | launching _ | recording _ _
      | finished _ =>
          refine nothing_taken ?_ ?_ rfl
          · simpa only [step, modifyDrain, stage] using h
          · cases stream <;> simp only [octetsTaken, stage]
  | close stream =>
      refine nothing_taken ?_ rfl rfl
      cases stage : s.stage with
      | draining d =>
          obtain ⟨drained, exit_eq, none_added⟩ := (accounted_draining stage).mp h
          simp only [step, modifyDrain, stage]
          refine (accounted_draining rfl).mpr ⟨drained.close, ?_, none_added⟩
          cases stream <;> exact exit_eq
      | opening | loading | publishing _ _ | uploading _ | launching _ | recording _ _
      | finished _ => simpa only [step, modifyDrain, stage] using h
  | deliver stream =>
      refine nothing_taken ?_ rfl rfl
      cases stage : s.stage with
      | draining d => simpa only [step, stage] using accounted_deliver h stage stream
      | opening | loading | publishing _ _ | uploading _ | launching _ | recording _ _
      | finished _ => simpa only [step, stage] using h
  | exited status =>
      cases stage : s.stage with
      | draining d =>
          obtain ⟨drained, exit_eq, none_added⟩ := (accounted_draining stage).mp h
          simp only [step, modifyDrain, stage, octetsTaken, exitTaken, List.append_nil]
          have same : Drained { d with exit := d.exit.or (some status) } octets :=
            ⟨drained.stdout, drained.stderr⟩
          exact (accounted_draining rfl).mpr ⟨same, by rw [exit_eq], none_added⟩
      | opening | loading | publishing _ _ | uploading _ | launching _ | recording _ _
      | finished _ =>
          refine nothing_taken ?_ rfl ?_
          · simpa only [step, modifyDrain, stage] using h
          · simp only [exitTaken, stage]

theorem steps_sheet (s : Session) (events : List SessionEvent) (store : σ) :
    (s.steps config now events store).1.sheet = s.sheet := by
  induction events generalizing s store with
  | nil => rfl
  | cons event rest ih =>
      obtain ⟨calls, messages, phases, h⟩ := exists_stepSpec config now s event store
      exact (ih _ _).trans h.sheet

/-- What a session knows of its process and has recorded, after any run of events. -/
theorem accounted_steps (h : Accounted s octets exit ledger.runs) (events : List SessionEvent) :
    let after := s.steps config now events ledger
    Accounted after.1 (octets ++ s.stdoutRead config now events ledger)
      (exit.or (s.exitReported config now events ledger)) after.2.runs := by
  induction events generalizing s octets exit ledger with
  | nil => simpa [steps, stdoutRead, exitReported] using h
  | cons event rest ih =>
      have later := ih (accounted_step config now h event)
      rw [List.append_assoc, Option.or_assoc] at later
      exact later

end

/-- A session that started its process and is over has one run to add: that of the octets it read
and of the end it learned. -/
theorem runs_of_finished (config : Config) (now : Int) (sheet : SheetId) (playground : PlaygroundId)
    (events : List SessionEvent) (store : σ) :
    let s : Session := { sheet, playground }
    let ledger : RunLedger σ := { store }
    let after := s.steps config now events ledger
    .draining ∈ after.1.phases → after.1.result?.isSome →
      ∃ status, s.exitReported config now events ledger = some status ∧
        after.2.runs = [.ofOutput sheet (s.stdoutRead config now events ledger) status] := by
  intro s ledger after started ended
  have start : Accounted s [] none ledger.runs :=
    (accounted_early rfl).mpr ⟨List.not_mem_nil, rfl, rfl, rfl⟩
  have account : Accounted after.1 (s.stdoutRead config now events ledger)
      (s.exitReported config now events ledger) after.2.runs := by
    simpa using accounted_steps config now start events
  have same_sheet : after.1.sheet = sheet := steps_sheet config now s events ledger
  cases stage : after.1.stage with
  | finished result =>
      cases result with
      | error error =>
          exact absurd started ((accounted_failed stage).mp account).not_entered
      | ok summary =>
          rw [← same_sheet]
          exact (accounted_completed stage).mp account
  | opening | loading | publishing _ _ | uploading _ | launching _ | draining _ | recording _ _ =>
      rw [result?, stage] at ended
      contradiction

/-- Two sessions on one sheet add the same run if their processes wrote the same octets to their
standard outputs and ended the same way. It is the run of that output, decoded as a whole. -/
theorem run_determined_by_stdout {σ' : Type} [SheetStore σ'] (config : Config) (sheet : SheetId)
    (playground : PlaygroundId) (now now' : Int) (events events' : List SessionEvent)
    (store : σ) (store' : σ') :
    let s : Session := { sheet, playground }
    let ledger : RunLedger σ := { store }
    let ledger' : RunLedger σ' := { store := store' }
    let after := s.steps config now events ledger
    let after' := s.steps config now' events' ledger'
    .draining ∈ after.1.phases → after.1.result?.isSome →
    .draining ∈ after'.1.phases → after'.1.result?.isSome →
    s.stdoutRead config now events ledger = s.stdoutRead config now' events' ledger' →
    s.exitReported config now events ledger = s.exitReported config now' events' ledger' →
      after.2.runs = after'.2.runs ∧
        ∃ status, s.exitReported config now events ledger = some status ∧
          after.2.runs = [.ofOutput sheet (s.stdoutRead config now events ledger) status] := by
  intro s ledger ledger' after after' started ended started' ended' same_octets same_exit
  obtain ⟨status, exited, runs⟩ :=
    runs_of_finished config now sheet playground events store started ended
  obtain ⟨status', exited', runs'⟩ :=
    runs_of_finished config now' sheet playground events' store' started' ended'
  have same_status : some status = some status' := by
    calc some status = s.exitReported config now events ledger := exited.symm
      _ = s.exitReported config now' events' ledger' := same_exit
      _ = some status' := exited'
  cases same_status
  refine ⟨?_, status, exited, runs⟩
  calc after.2.runs = [.ofOutput sheet (s.stdoutRead config now events ledger) status] := runs
    _ = [.ofOutput sheet (s.stdoutRead config now' events' ledger') status] := by rw [same_octets]
    _ = after'.2.runs := runs'.symm

/-- A sheet whose program is not looked at. -/
def scriptSheet : Sheet where
  id := ⟨"s"⟩
  playground := ⟨"p"⟩
  title := ""
  files := [{ filename := "index.js", code := "", language := "javascript" }]

def startEvents : List SessionEvent := [.proceed, .proceed, .setUp (.ok ()), .started (.ok ())]

/-- A character of two octets is read at once. -/
def wholeReads : List SessionEvent :=
  startEvents ++ [.read .stdout [0x68, 0xC3, 0xA9], .deliver .stdout, .deliver .stdout,
    .close .stdout, .close .stderr, .exited (.code 0), .proceed, .proceed]

/-- The same character is read in two, with the other stream in between. -/
def splitReads : List SessionEvent :=
  startEvents ++ [.read .stdout [0x68, 0xC3], .deliver .stdout, .read .stderr [0x21],
    .deliver .stdout, .exited (.code 0), .read .stdout [0xA9], .deliver .stderr, .deliver .stdout,
    .deliver .stdout, .close .stderr, .close .stdout, .proceed, .proceed]

theorem run_determined_split_character :
    let s : Session := { sheet := ⟨"s"⟩, playground := ⟨"p"⟩ }
    let ledger : RunLedger InMemoryStore := { store := { sheets := [scriptSheet] } }
    s.stdoutRead {} 0 wholeReads ledger = [0x68, 0xC3, 0xA9] ∧
      (s.steps {} 0 wholeReads ledger).2.runs = (s.steps {} 7 splitReads ledger).2.runs :=
  ⟨by decide +kernel,
    (run_determined_by_stdout {} ⟨"s"⟩ ⟨"p"⟩ 0 7 wholeReads splitReads
      ({ sheets := [scriptSheet] } : InMemoryStore) ({ sheets := [scriptSheet] } : InMemoryStore)
      (by decide +kernel) (by decide +kernel) (by decide +kernel) (by decide +kernel)
      (by decide +kernel) (by decide +kernel)).1⟩

end Session

end AgentWorkbench
