import AgentWorkbench.Proofs.Session.History
import AgentWorkbench.Proofs.Session.Record
import AgentWorkbench.Proofs.Store.Reading

/-!
The course of a session as its client and its store see it. Until the process runs the session says
a line at the start and, if it extracts the graph ahead, may announce it; a failure is one line more
and adds no run. While the process runs the readers speak; then the session says how the process
ended, and asks for one run to be added.
-/
namespace AgentWorkbench

/-- A message, with the stream whose reader sent it; without one the session itself did. -/
abbrev Said := Option OutputStream × ServerMessage

def SessionEffect.said? : SessionEffect → Option Said
  | sent reader message => some (reader, message)
  | _ => none

namespace Session

def preparingSaid : Said := (none, .output preparingLine)

def errorSaid (error : SessionError) : Said :=
  (none, .output ("Error: " ++ error.message ++ "\r\n"))

def statusSaid (status : ExitStatus) : Said := (none, .output status.line)

/-- What is said while the process runs: output that a reader forwards, and that the graph is
ready. -/
inductive Relayed (sheet : SheetId) (playground : PlaygroundId) : Said → Prop where
  | output (stream : OutputStream) (text : String) :
      Relayed sheet playground (some stream, .output text)
  | graphReady (reader : Option OutputStream) :
      Relayed sheet playground (reader, .graphReady sheet playground)

/-- What is said before the process runs. -/
inductive Prepared (config : Config) (sheet : SheetId) (playground : PlaygroundId) :
    List Said → Prop where
  | silent : Prepared config sheet playground [preparingSaid]
  | announced (static : config.graphMode = .static) :
      Prepared config sheet playground [preparingSaid, (none, .graphReady sheet playground)]

theorem result?_eq_some_iff {s : Session} {result : Except SessionError RunSummary} :
    s.result? = some result ↔ s.stage = .finished result := by
  rw [result?]
  cases s.stage <;> simp

variable {σ : Type} [SheetStore σ]

/-- The store is as it was, up to a graph saved for the sheet if graphs are extracted ahead. -/
inductive LeftAlone (config : Config) (sheet : SheetId) (store : σ) : σ → Prop where
  | same : LeftAlone config sheet store store
  | saved (static : config.graphMode = .static) (graph : PipelineGraph) :
      LeftAlone config sheet store (SheetStore.apply (.saveGraph sheet graph) store).2

/-- A session that failed before its process ran. -/
structure FailedCourse (config : Config) (sheet : SheetId) (playground : PlaygroundId)
    (error : SessionError) (store : σ) (said : List Said) (ledger : RunLedger σ) : Prop where
  said_eq : ∃ before, Prepared config sheet playground before ∧ said = before ++ [errorSaid error]
  no_run : ledger.runs = []
  store : LeftAlone config sheet store ledger.store

/-- What a session has said once its process ended: the status is the last of it. -/
def Concluded (sheet : SheetId) (playground : PlaygroundId) (exit : Option ExitStatus)
    (said : List Said) : Prop :=
  ∃ status relayed, exit = some status ∧ (∀ m ∈ relayed, Relayed sheet playground m) ∧
    said = preparingSaid :: (relayed ++ [statusSaid status])

structure CompletedCourse (sheet : SheetId) (playground : PlaygroundId) (exit : Option ExitStatus)
    (said : List Said) (ledger : RunLedger σ) : Prop where
  concluded : Concluded sheet playground exit said
  one_run : ∃ run, ledger.runs = [run]

/-- What a session has said and done to its store, by its stage. -/
def Course (config : Config) (store : σ) (s : Session) (said : List Said)
    (exit : Option ExitStatus) (ledger : RunLedger σ) : Prop :=
  match s.stage with
  | .opening => said = [] ∧ ledger = { store } ∧ exit = none
  | .loading => said = [preparingSaid] ∧ ledger = { store } ∧ exit = none
  | .publishing _ _ =>
      said = [preparingSaid] ∧ ledger = { store } ∧ exit = none ∧ config.graphMode = .static
  | .uploading _ | .launching _ =>
      Prepared config s.sheet s.playground said ∧ ledger.runs = [] ∧
        LeftAlone config s.sheet store ledger.store ∧ exit = none
  | .draining d =>
      d.exit = exit ∧ ledger.runs = [] ∧
        ∃ relayed, said = preparingSaid :: relayed ∧
          ∀ m ∈ relayed, Relayed s.sheet s.playground m
  | .recording _ _ => Concluded s.sheet s.playground exit said ∧ ledger.runs = []
  | .finished (.error error) =>
      FailedCourse config s.sheet s.playground error store said ledger
  | .finished (.ok _) => CompletedCourse s.sheet s.playground exit said ledger

section

variable {config : Config} {sheet : SheetId} {playground : PlaygroundId} {store : σ}
  {said : List Said} {exit : Option ExitStatus}

theorem Prepared.relayed (h : Prepared config sheet playground said) :
    ∃ relayed, said = preparingSaid :: relayed ∧ ∀ m ∈ relayed, Relayed sheet playground m := by
  cases h with
  | silent => exact ⟨[], rfl, by simp⟩
  | announced static => exact ⟨_, rfl, by simpa using .graphReady none⟩

theorem Prepared.head? (h : Prepared config sheet playground said) :
    said.head? = some preparingSaid := by
  cases h <;> rfl

end

/-- What a step says, by the messages it adds to those sent. -/
theorem filterMap_said?_effects (config : Config) (now : Int) {s : Session} {event : SessionEvent}
    {store : σ} {messages : List ServerMessage}
    (sent : (s.step config now event store).1.sent = s.sent ++ messages) :
    (s.effects config now event store).filterMap SessionEffect.said? =
      messages.map (event.reader?, ·) := by
  obtain ⟨calls, messages', phases, h⟩ := exists_stepSpec config now s event store
  have same : messages' = messages := List.append_cancel_left (h.sent.symm.trans sent)
  rw [h.effects_eq, same]
  simp [SessionEffect.ofStep, List.filterMap_map, Function.comp_def, SessionEffect.said?]

theorem map_snd_said (t : List SessionEffect) :
    (t.filterMap SessionEffect.said?).map Prod.snd = t.filterMap SessionEffect.message? := by
  rw [List.map_filterMap]
  congr 1
  funext e
  cases e <;> rfl

/-- A step leads on in the course, with the messages that it adds. -/
def Advance (config : Config) (store : σ) (s : Session) (reader : Option OutputStream)
    (said : List Said) (exit : Option ExitStatus) (after : Session × RunLedger σ) : Prop :=
  ∃ messages, after.1.sent = s.sent ++ messages ∧
    Course config store after.1 (said ++ messages.map (reader, ·)) exit after.2

section

variable {config : Config} {store : σ} {s : Session} {reader : Option OutputStream}
  {said : List Said} {exit : Option ExitStatus} {ledger : RunLedger σ}
  {after : Session × RunLedger σ}

theorem Advance.silent (sent : after.1.sent = s.sent)
    (course : Course config store after.1 said exit after.2) :
    Advance config store s reader said exit after :=
  ⟨[], sent.trans (List.append_nil _).symm, by simpa using course⟩

theorem Advance.stay (h : Course config store s said exit ledger) :
    Advance config store s reader said exit (s, ledger) :=
  .silent rfl h

theorem Advance.say {message : ServerMessage} (sent : after.1.sent = s.sent ++ [message])
    (course : Course config store after.1 (said ++ [(reader, message)]) exit after.2) :
    Advance config store s reader said exit after :=
  ⟨[message], sent, course⟩

theorem Advance.fail (prepared : Prepared config s.sheet s.playground said)
    (no_run : ledger.runs = []) (alone : LeftAlone config s.sheet store ledger.store)
    (error : SessionError) : Advance config store s none said exit (s.fail error, ledger) :=
  .say rfl ⟨⟨said, prepared, rfl⟩, no_run, alone⟩

/-- Nothing has happened to the store when the session fails. -/
theorem Advance.failEarly (error : SessionError) :
    Advance config store s none [preparingSaid] exit (s.fail error, { store }) :=
  have unchanged : LeftAlone config s.sheet store ({ store } : RunLedger σ).store := .same
  .fail .silent rfl unchanged error

/-- A plan with a graph extracted ahead is one of the static mode. -/
theorem static_of_prepare {sheet : Sheet} {plan : RunPlan} {graph : PipelineGraph}
    (made : RunPlan.prepare config sheet.files = .ok plan)
    (ahead : plan.staticGraph = some graph) : config.graphMode = .static := by
  obtain ⟨language, entry, -, chosen, rfl⟩ := RunPlan.prepare_eq_ok_iff.mp made
  rw [RunPlan.staticGraph_build chosen] at ahead
  split at ahead
  · next both => exact both.2
  · contradiction

theorem Advance.plan (sheet : Sheet) :
    Advance config store s none [preparingSaid] none (s.plan config sheet, { store }) := by
  rw [Session.plan]
  split
  · next error _ => exact .failEarly error
  · next plan made =>
      split
      · next graph ahead => exact .silent rfl ⟨rfl, rfl, rfl, static_of_prepare made ahead⟩
      · exact .silent rfl ⟨.silent, rfl, .same, rfl⟩

theorem Advance.publish {plan : RunPlan} {graph : PipelineGraph}
    (static : config.graphMode = .static) :
    let published := s.storeGraph graph ({ store } : RunLedger σ)
    Advance config store s none [preparingSaid] none
      ((if published.1 then s.announceGraph else s).startUploading plan, published.2) := by
  have saved : SheetStore.apply (.saveGraph s.sheet graph) ({ store } : RunLedger σ) =
      ((SheetStore.apply (.saveGraph s.sheet graph) store).1,
        { store := (SheetStore.apply (.saveGraph s.sheet graph) store).2 }) := rfl
  have alone : LeftAlone config s.sheet store _ := .saved static graph
  simp only [storeGraph, saved]
  cases (SheetStore.apply (.saveGraph s.sheet graph) store).1 with
  | ok => exact .say rfl ⟨.announced static, rfl, alone, rfl⟩
  | error error => exact .silent rfl ⟨.silent, rfl, alone, rfl⟩

/-- The process and its streams have ended. -/
theorem Advance.wrapUp {d : Drain} {status : ExitStatus} (stage : s.stage = .draining d)
    (h : Course config store s said exit ledger) (ended : d.finished? = some status) :
    Advance config store s none said exit (s.wrapUp d status, ledger) := by
  rw [Course, stage] at h
  obtain ⟨exited, no_run, relayed, rfl, each⟩ := h
  have learned : exit = some status := by
    rw [← exited]
    exact (Option.ite_none_right_eq_some.mp ended).2
  exact .say rfl ⟨⟨status, relayed, learned, each, rfl⟩, no_run⟩

theorem course_draining {d : Drain} (stage : s.stage = .draining d) :
    Course config store s said exit ledger ↔
      d.exit = exit ∧ ledger.runs = [] ∧ ∃ relayed, said = preparingSaid :: relayed ∧
        ∀ m ∈ relayed, Relayed s.sheet s.playground m := by
  rw [Course, stage]

theorem Advance.drain {d d' : Drain} {ledger' : RunLedger σ} (stage : s.stage = .draining d)
    (h : Course config store s said exit ledger) (same_exit : d'.exit = d.exit)
    (same_runs : ledger'.runs = ledger.runs) :
    Advance config store s reader said exit (s.moveTo (.draining d'), ledger') := by
  obtain ⟨exited, no_run, relayed⟩ := (course_draining stage).mp h
  exact .silent rfl ⟨same_exit.trans exited, same_runs.trans no_run, relayed⟩

theorem Advance.relay {d d' : Drain} {message : ServerMessage} (stage : s.stage = .draining d)
    (h : Course config store s said exit ledger) (same_exit : d'.exit = d.exit)
    (passed : Relayed s.sheet s.playground (reader, message)) :
    Advance config store s reader said exit
      ((s.send message).moveTo (.draining d'), ledger) := by
  obtain ⟨exited, no_run, relayed, rfl, each⟩ := (course_draining stage).mp h
  refine .say rfl ⟨same_exit.trans exited, no_run, relayed ++ [(reader, message)], rfl, ?_⟩
  intro m mem
  obtain mem | mem := List.mem_append.mp mem
  · exact each m mem
  · rw [List.mem_singleton.mp mem]
    exact passed

end

theorem StableReads.apply_getSheet_ledger [StableReads σ] (sheet : SheetId)
    (playground : PlaygroundId) (ledger : RunLedger σ) :
    (SheetStore.apply (.getSheet sheet playground) ledger).2 = ledger := by
  have same := StableReads.apply_getSheet sheet playground ledger.store
  simp only [SheetStore.apply, StoreOp.run?, Option.toList_none, List.append_nil] at same ⊢
  rw [same]

section

variable (config : Config) (now : Int) {store : σ} {s : Session} {said : List Said}
  {exit : Option ExitStatus} {ledger : RunLedger σ}

theorem advance_proceed [StableReads σ] (h : Course config store s said exit ledger) :
    Advance config store s none said exit (s.proceed config now ledger) := by
  have known := h
  cases stage : s.stage with
  | opening =>
      rw [Course, stage] at known
      obtain ⟨rfl, rfl, rfl⟩ := known
      simp only [proceed, stage]
      exact .say rfl ⟨rfl, rfl, rfl⟩
  | loading =>
      rw [Course, stage] at known
      obtain ⟨rfl, rfl, rfl⟩ := known
      have unchanged :=
        StableReads.apply_getSheet_ledger s.sheet s.playground ({ store } : RunLedger σ)
      simp only [proceed, stage]
      split
      · next loaded later answer =>
          rw [answer] at unchanged
          cases unchanged
          exact .plan loaded
      · next error later answer =>
          rw [answer] at unchanged
          cases unchanged
          exact .failEarly _
  | publishing plan graph =>
      rw [Course, stage] at known
      obtain ⟨rfl, rfl, rfl, static⟩ := known
      simp only [proceed, stage]
      exact .publish static
  | draining d =>
      simp only [proceed, stage]
      split
      · next status ended => exact .wrapUp stage h ended
      · exact .stay h
  | recording record graphEmitted =>
      rw [Course, stage] at known
      obtain ⟨concluded, no_run⟩ := known
      simp only [proceed, stage]
      refine .silent rfl ⟨concluded, record, ?_⟩
      rw [RunLedger.runs_apply, no_run]
      rfl
  | uploading _ | launching _ | finished _ =>
      simp only [proceed, stage]
      exact .stay h

theorem advance_setUp (h : Course config store s said exit ledger)
    (outcome : Except SetupFailure Unit) :
    Advance config store s none said exit (s.setUp config outcome, ledger) := by
  have known := h
  cases stage : s.stage with
  | uploading plan =>
      rw [Course, stage] at known
      obtain ⟨prepared, no_run, alone, no_exit⟩ := known
      obtain (_ | error) | _ := outcome
      · simp only [setUp, stage]
        exact .fail prepared no_run alone _
      · simp only [setUp, stage]
        exact .fail prepared no_run alone _
      · simp only [setUp, stage]
        exact .silent rfl ⟨prepared, no_run, alone, no_exit⟩
  | opening | loading | publishing _ _ | launching _ | draining _ | recording _ _ | finished _ =>
      simp only [setUp, stage]
      exact .stay h

theorem advance_started (h : Course config store s said exit ledger) (outcome : Except WorkerError Unit) :
    Advance config store s none said exit (s.started outcome, ledger) := by
  have known := h
  cases stage : s.stage with
  | launching plan =>
      rw [Course, stage] at known
      obtain ⟨prepared, no_run, alone, no_exit⟩ := known
      obtain error | _ := outcome
      · simp only [started, stage]
        exact .fail prepared no_run alone _
      · simp only [started, stage]
        obtain ⟨relayed, said_eq, each⟩ := prepared.relayed
        exact .silent rfl ⟨no_exit.symm, no_run, relayed, said_eq, each⟩
  | opening | loading | publishing _ _ | uploading _ | draining _ | recording _ _ | finished _ =>
      simp only [started, stage]
      exact .stay h

theorem advance_deliver {d : Drain} (stage : s.stage = .draining d)
    (h : Course config store s said exit ledger) (stream : OutputStream) :
    Advance config store s (some stream) said exit (s.deliver d stream ledger) := by
  have exit_kept (pending : List ReaderAction) : (d.setPending stream pending).exit = d.exit := by
    cases stream <;> rfl
  rw [deliver]
  split
  · exact .stay h
  · exact .relay stage h (exit_kept _) (.output stream _)
  · refine .drain stage h ?_ rfl
    cases stream <;> rfl
  · exact .drain stage h (exit_kept _) (runs_storeGraph s _ ledger)
  · exact .relay stage h (exit_kept _) (.graphReady _)

/-- An event that changes the drain and says nothing. -/
theorem advance_modifyDrain {f : Drain → Drain} (same : ∀ d, (f d).exit = d.exit)
    (h : Course config store s said exit ledger) (reader : Option OutputStream) :
    Advance config store s reader said exit (s.modifyDrain f, ledger) := by
  cases stage : s.stage with
  | draining d =>
      simp only [modifyDrain, stage]
      exact .drain stage h (same d) rfl
  | opening | loading | publishing _ _ | uploading _ | launching _ | recording _ _ | finished _ =>
      simp only [modifyDrain, stage]
      exact .stay h

theorem advance_step [StableReads σ] (h : Course config store s said exit ledger)
    (event : SessionEvent) (no_exit : s.exitTaken event = none) :
    Advance config store s event.reader? said exit (s.step config now event ledger) := by
  cases event with
  | proceed => exact advance_proceed config now h
  | setUp outcome => exact advance_setUp config h outcome
  | started outcome => exact advance_started config h outcome
  | read stream octets =>
      exact advance_modifyDrain config (fun d => by cases stream <;> rfl) h none
  | close stream =>
      exact advance_modifyDrain config (fun d => by cases stream <;> rfl) h none
  | deliver stream =>
      cases stage : s.stage with
      | draining d =>
          simp only [step, stage]
          exact advance_deliver config stage h stream
      | opening | loading | publishing _ _ | uploading _ | launching _ | recording _ _
      | finished _ =>
          simp only [step, stage]
          exact .stay h
  | exited status =>
      cases stage : s.stage with
      | draining d =>
          rw [exitTaken, stage] at no_exit
          contradiction
      | opening | loading | publishing _ _ | uploading _ | launching _ | recording _ _
      | finished _ =>
          simp only [step, modifyDrain, stage]
          exact .stay h
  | input text | stdinWritten | stdinFailed octets => exact .silent rfl h

/-- The session learns how the process ended. -/
theorem course_exited {d : Drain} (stage : s.stage = .draining d)
    (h : Course config store s said exit ledger) (status : ExitStatus) :
    Course config store (s.moveTo (.draining { d with exit := d.exit.or (some status) })) said
      (exit.or (some status)) ledger := by
  obtain ⟨rfl, no_run, relayed⟩ := (course_draining stage).mp h
  exact ⟨rfl, no_run, relayed⟩

theorem course_step [StableReads σ] (h : Course config store s said exit ledger)
    (event : SessionEvent) :
    let after := s.step config now event ledger
    Course config store after.1
      (said ++ (s.effects config now event ledger).filterMap SessionEffect.said?)
      (exit.or (s.exitTaken event)) after.2 := by
  cases taken : s.exitTaken event with
  | none =>
      obtain ⟨messages, sent, course⟩ := advance_step config now h event taken
      rw [filterMap_said?_effects config now sent, Option.or_none]
      exact course
  | some status =>
      cases event with
      | exited status' =>
          cases stage : s.stage with
          | draining d =>
              rw [exitTaken, stage] at taken
              cases taken
              have after : s.step config now (.exited status) ledger =
                  (s.moveTo (.draining { d with exit := d.exit.or (some status) }), ledger) := by
                simp only [step, modifyDrain, stage]
              have sent : (s.step config now (.exited status) ledger).1.sent = s.sent ++ [] := by
                rw [after, List.append_nil]
                rfl
              rw [filterMap_said?_effects config now sent, after]
              simpa using course_exited config stage h status
          | opening | loading | publishing _ _ | uploading _ | launching _ | recording _ _
          | finished _ =>
              rw [exitTaken, stage] at taken
              contradiction
      | proceed | setUp _ | started _ | read _ _ | close _ | deliver _ | input _ | stdinWritten
      | stdinFailed _ => contradiction

/-- The course of a whole run. -/
theorem course_steps [StableReads σ] (h : Course config store s said exit ledger)
    (events : List SessionEvent) :
    let after := s.steps config now events ledger
    Course config store after.1
      (said ++ (s.trace config now events ledger).filterMap SessionEffect.said?)
      (exit.or (s.exitReported config now events ledger)) after.2 := by
  induction events generalizing s said exit ledger with
  | nil => simpa [steps, trace, exitReported] using h
  | cons event rest ih =>
      have later := ih (course_step config now h event)
      rw [List.append_assoc, ← List.filterMap_append, Option.or_assoc] at later
      exact later

theorem steps_playground (s : Session) (events : List SessionEvent) (store : σ) :
    (s.steps config now events store).1.playground = s.playground := by
  induction events generalizing s store with
  | nil => rfl
  | cons event rest ih =>
      obtain ⟨calls, messages, phases, h⟩ := exists_stepSpec config now s event store
      exact (ih _ _).trans h.playground

end

theorem Course.head? {config : Config} {store : σ} {s : Session} {said : List Said}
    {exit : Option ExitStatus} {ledger : RunLedger σ} (h : Course config store s said exit ledger) :
    ∀ m ∈ said.head?, m = preparingSaid := by
  have of_eq {said : List Said} (first : said.head? = some preparingSaid) :
      ∀ m ∈ said.head?, m = preparingSaid := by
    rw [first]
    rintro m ⟨⟩
    rfl
  have of_concluded (ended : Concluded s.sheet s.playground exit said) :
      ∀ m ∈ said.head?, m = preparingSaid := by
    obtain ⟨status, relayed, -, -, rfl⟩ := ended
    exact of_eq rfl
  rw [Course] at h
  split at h
  · rw [h.1]
    simp
  · exact of_eq (by rw [h.1]; rfl)
  · exact of_eq (by rw [h.1]; rfl)
  · exact of_eq h.1.head?
  · exact of_eq h.1.head?
  · obtain ⟨-, -, relayed, rfl, -⟩ := h
    exact of_eq rfl
  · exact of_concluded h.1
  · obtain ⟨before, prepared, rfl⟩ := h.said_eq
    refine of_eq ?_
    rw [List.head?_append, prepared.head?]
    rfl
  · exact of_concluded h.concluded

/-- Whatever the sheet, the store and the worker are like, and in whatever order the readers act,
the client is told first that its code is prepared. A session that fails tells it so at the end, and
leaves no trace but a graph that was extracted ahead; a session that completes tells at the end how
the process ended, after all output, and asks for one run to be added. -/
theorem steps_follow_course [StableReads σ] (config : Config) (now : Int) (sheet : SheetId)
    (playground : PlaygroundId) (events : List SessionEvent) (store : σ) :
    let s : Session := { sheet, playground }
    let ledger : RunLedger σ := { store }
    let after := s.steps config now events ledger
    let said := (s.trace config now events ledger).filterMap SessionEffect.said?
    after.1.sent = said.map Prod.snd ∧ (∀ m ∈ said.head?, m = preparingSaid) ∧
      (∀ error, after.1.result? = some (.error error) →
        FailedCourse config sheet playground error store said after.2) ∧
      ∀ summary, after.1.result? = some (.ok summary) →
        CompletedCourse sheet playground (s.exitReported config now events ledger) said after.2 := by
  intro s ledger after said
  have start : Course config store s [] none ledger := ⟨rfl, rfl, rfl⟩
  have course : Course config store after.1 said (s.exitReported config now events ledger)
      after.2 := by
    simpa using course_steps config now start events
  have same_sheet : after.1.sheet = sheet := steps_sheet config now s events ledger
  have same_playground : after.1.playground = playground :=
    steps_playground config now s events ledger
  refine ⟨?_, course.head?, ?_, ?_⟩
  · rw [map_snd_said]
    exact (steps_trace config now s events ledger).2.1
  · intro error ended
    rw [Course, result?_eq_some_iff.mp ended, same_sheet, same_playground] at course
    exact course
  · intro summary ended
    rw [Course, result?_eq_some_iff.mp ended, same_sheet, same_playground] at course
    exact course

/-- A sheet whose graph is extracted, and which cannot be started. -/
def unstartedSheet : Sheet where
  id := ⟨"s"⟩
  playground := ⟨"p"⟩
  title := ""
  files := [{ filename := "main.py", code := "", language := "python" }]

def unstartedEvents : List SessionEvent :=
  [.proceed, .proceed, .proceed, .setUp (.ok ()), .started (.error (.launch "python3" "gone"))]

theorem course_of_unstarted_and_completed :
    let s : Session := { sheet := ⟨"s"⟩, playground := ⟨"p"⟩ }
    let error : SessionError := .worker (.launch "python3" "gone")
    let before : RunLedger InMemoryStore := { store := { sheets := [unstartedSheet] } }
    let before' : RunLedger InMemoryStore := { store := { sheets := [scriptSheet] } }
    let said := (s.trace { graphMode := .static } 0 unstartedEvents before).filterMap
      SessionEffect.said?
    let said' := (s.trace {} 0 splitReads before').filterMap SessionEffect.said?
    (said.length = 3 ∧ FailedCourse { graphMode := .static } s.sheet s.playground error before.store
        said (s.steps { graphMode := .static } 0 unstartedEvents before).2) ∧
      said'.length = 5 ∧
        CompletedCourse s.sheet s.playground (s.exitReported {} 0 splitReads before') said'
          (s.steps {} 0 splitReads before').2 := by
  intro s error before before' said said'
  have failed : (s.steps { graphMode := .static } 0 unstartedEvents before).1.result? =
      some (.error error) := by
    decide +kernel
  have completed : (s.steps {} 0 splitReads before').1.result? =
      some (.ok { exitCode := some 0, run := some 1, graphEmitted := false }) := by
    decide +kernel
  exact ⟨⟨by decide +kernel, (steps_follow_course _ 0 _ _ unstartedEvents _).2.2.1 error failed⟩,
    by decide +kernel, (steps_follow_course _ 0 _ _ splitReads _).2.2.2 _ completed⟩

end Session

end AgentWorkbench
