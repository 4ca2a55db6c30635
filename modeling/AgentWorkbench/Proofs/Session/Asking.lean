import AgentWorkbench.Proofs.Session.Record
import AgentWorkbench.Proofs.Store.Agreement

/-!
What a session asks of its store. A step makes at most one operation, and what becomes of the
session depends on the store by its result alone. A session saves graphs and adds runs for its own
sheet alone, and only once it has loaded it.
-/
namespace AgentWorkbench

/-- The sheet has been loaded and can be run. -/
def Stage.hasLoaded : Stage → Bool
  | opening | loading | finished (.error _) => false
  | _ => true

namespace Session

/-- The operation that a step makes. -/
def asks (now : Int) (s : Session) : SessionEvent → Option StoreRequest
  | .proceed =>
    match s.stage with
    | .loading => some ⟨_, .getSheet s.sheet s.playground⟩
    | .publishing _ graph => some ⟨_, .saveGraph s.sheet graph⟩
    | .recording record _ => some ⟨_, .insertRun now record⟩
    | _ => none
  | .deliver stream =>
    match s.stage with
    | .draining d =>
      match (d.reader stream).pending with
      | .saveGraph graph :: _ => some ⟨_, .saveGraph s.sheet graph⟩
      | _ => none
    | _ => none
  | _ => none

/-- The operations that a session makes, and when. -/
inductive Asks (now : Int) (s : Session) : StoreRequest → Prop where
  | load (stage : s.stage = .loading) : Asks now s ⟨_, .getSheet s.sheet s.playground⟩
  | save (loaded : s.stage.hasLoaded = true) (graph : PipelineGraph) :
      Asks now s ⟨_, .saveGraph s.sheet graph⟩
  | record {record : RunRecord} {graphEmitted : Bool}
      (stage : s.stage = .recording record graphEmitted) : Asks now s ⟨_, .insertRun now record⟩

/-- A step without an operation does the same on every store; any other is the operation and what
the session makes of its result. -/
inductive Asking (config : Config) (now : Int) (s : Session) (event : SessionEvent) :
    Option StoreRequest → Prop where
  | nothing {s' : Session}
      (same : ∀ {σ : Type} [SheetStore σ] (store : σ),
        s.step config now event store = (s', store)) :
      Asking config now s event none
  | operation {α : Type} {op : StoreOp α} (next : Except StorageError α → Session)
      (same : ∀ {σ : Type} [SheetStore σ] (store : σ), s.step config now event store =
        (next (SheetStore.apply op store).1, (SheetStore.apply op store).2)) :
      Asking config now s event (some ⟨α, op⟩)

section

variable (config : Config) (now : Int) (s : Session)

theorem asks_of_eq_some {event : SessionEvent} {request : StoreRequest}
    (made : s.asks now event = some request) : Asks now s request := by
  cases event with
  | proceed =>
      cases stage : s.stage with
      | loading =>
          simp only [asks, stage] at made
          cases made
          exact .load stage
      | publishing plan graph =>
          simp only [asks, stage] at made
          cases made
          exact .save (by rw [stage]; rfl) graph
      | recording record graphEmitted =>
          simp only [asks, stage] at made
          cases made
          exact .record stage
      | opening | uploading _ | launching _ | draining _ | finished _ =>
          simp only [asks, stage] at made
          contradiction
  | deliver stream =>
      cases stage : s.stage with
      | draining d =>
          simp only [asks, stage] at made
          split at made
          · cases made
            exact .save (by rw [stage]; rfl) _
          · contradiction
      | opening | loading | publishing _ _ | uploading _ | launching _ | recording _ _
      | finished _ =>
          simp only [asks, stage] at made
          contradiction
  | setUp _ | started _ | read _ _ | close _ | exited _ | input _ | stdinWritten
  | stdinFailed _ => contradiction

theorem storeGraph_eq {σ : Type} [SheetStore σ] (graph : PipelineGraph) (store : σ) :
    s.storeGraph graph store = ((SheetStore.apply (.saveGraph s.sheet graph) store).1.isOk,
      (SheetStore.apply (.saveGraph s.sheet graph) store).2) := by
  rw [storeGraph]
  split <;> next answer => rw [answer]; rfl

theorem asking_proceed : Asking config now s .proceed (s.asks now .proceed) := by
  cases stage : s.stage with
  | loading =>
      simp only [asks, stage]
      refine .operation
        (fun
          | .ok sheet => s.plan config sheet
          | .error e => s.fail (.ofStorage e)) fun store => ?_
      simp only [step, proceed, stage]
      split <;> next answer => rw [answer]
  | publishing plan graph =>
      simp only [asks, stage]
      refine .operation
        (fun result => (if result.isOk then s.announceGraph else s).startUploading plan)
        fun store => ?_
      simp only [step, proceed, stage, storeGraph_eq]
  | recording record graphEmitted =>
      simp only [asks, stage]
      refine .operation
        (fun result =>
          s.complete { exitCode := record.exitCode, run := result.toOption, graphEmitted })
        fun store => ?_
      simp only [step, proceed, stage]
  | opening =>
      simp only [asks, stage]
      exact .nothing fun store => by simp only [step, proceed, stage]; rfl
  | draining d =>
      simp only [asks, stage]
      cases ended : d.finished? with
      | none => exact .nothing fun store => by simp only [step, proceed, stage, ended]; rfl
      | some status => exact .nothing fun store => by simp only [step, proceed, stage, ended]; rfl
  | uploading _ | launching _ | finished _ =>
      simp only [asks, stage]
      exact .nothing fun store => by simp only [step, proceed, stage]; rfl

theorem asking_deliver (stream : OutputStream) :
    Asking config now s (.deliver stream) (s.asks now (.deliver stream)) := by
  cases stage : s.stage with
  | draining d =>
      cases next : (d.reader stream).pending with
      | nil =>
          simp only [asks, stage, next]
          exact .nothing fun store => by simp only [step, stage, deliver, next]; rfl
      | cons action rest =>
          cases action with
          | saveGraph graph =>
              simp only [asks, stage, next]
              refine .operation
                (fun result => s.moveTo (.draining
                  (d.setPending stream (if result.isOk then .announceGraph :: rest else rest))))
                fun store => ?_
              simp only [step, stage, deliver, next, storeGraph_eq]
          | forward _ | collect _ | announceGraph =>
              simp only [asks, stage, next]
              exact .nothing fun store => by simp only [step, stage, deliver, next]; rfl
  | opening | loading | publishing _ _ | uploading _ | launching _ | recording _ _ | finished _ =>
      simp only [asks, stage]
      exact .nothing fun store => by simp only [step, stage]; rfl

theorem asking (event : SessionEvent) : Asking config now s event (s.asks now event) := by
  cases event with
  | proceed => exact asking_proceed config now s
  | deliver stream => exact asking_deliver config now s stream
  | setUp _ | started _ | read _ _ | close _ | exited _ | input _ | stdinWritten
  | stdinFailed _ => exact .nothing fun _ => rfl

end

section

variable {σ : Type} [SheetStore σ] (config : Config) (now : Int)

/-- A step leaves the store as its operation leaves it. -/
theorem step_store (s : Session) (event : SessionEvent) (store : σ) :
    (s.step config now event store).2 =
      match s.asks now event with
      | none => store
      | some request => (SheetStore.apply request.2 store).2 := by
  have form := asking config now s event
  generalize s.asks now event = asked at form ⊢
  cases form with
  | nothing same => rw [same]
  | operation next same => rw [same]

/-- The calls of a step are its operation and the result. -/
theorem calls_effects (s : Session) (event : SessionEvent) (store : σ) :
    (s.effects config now event store).filterMap SessionEffect.call? =
      (s.asks now event).toList.map fun request =>
        .of request.2 (SheetStore.apply request.2 store).1 := by
  rw [effects, filterMap_call?_ofStep]
  have form := asking config now s event
  generalize s.asks now event = asked at form ⊢
  cases form with
  | nothing same => rw [same]; rfl
  | operation next same => rw [same]; rfl

/-- The runs that a step asks to add. -/
theorem step_ledger (s : Session) (event : SessionEvent) (ledger : RunLedger σ) :
    (s.step config now event ledger).1 = (s.step config now event ledger.store).1 ∧
      (s.step config now event ledger).2.runs =
        ledger.runs ++ ((s.asks now event).bind (·.2.run?)).toList := by
  have form := asking config now s event
  generalize s.asks now event = asked at form ⊢
  cases form with
  | nothing same =>
      rw [same, same]
      exact ⟨rfl, (List.append_nil _).symm⟩
  | operation next same =>
      rw [same, same]
      exact ⟨rfl, rfl⟩

/-- The runs that a session has had added. -/
def recorded (s : Session) (octets : List UInt8) (exit : Option ExitStatus) : List RunRecord :=
  match s.stage with
  | .finished (.ok _) => (exit.map (.ofOutput s.sheet octets)).toList
  | _ => []

variable {s : Session} {octets : List UInt8} {exit : Option ExitStatus}

theorem Accounted.runs_eq {runs : List RunRecord} (h : Accounted s octets exit runs) :
    runs = s.recorded octets exit := by
  rw [recorded]
  cases stage : s.stage with
  | draining d => exact ((accounted_draining stage).mp h).2.2
  | recording record graphEmitted =>
      rw [Accounted, stage] at h
      exact h.2
  | finished result =>
      cases result with
      | error error => exact ((accounted_failed stage).mp h).runs_eq
      | ok summary =>
          obtain ⟨status, rfl, runs⟩ := (accounted_completed stage).mp h
          exact runs
  | opening | loading | publishing _ _ | uploading _ | launching _ =>
      exact ((accounted_early (by rw [stage]; rfl)).mp h).runs_eq

theorem Accounted.record_sheet {runs : List RunRecord} (h : Accounted s octets exit runs)
    {record : RunRecord} {graphEmitted : Bool} (stage : s.stage = .recording record graphEmitted) :
    record.sheet = s.sheet := by
  rw [Accounted, stage] at h
  obtain ⟨⟨status, -, rfl⟩, -⟩ := h
  rfl

/-- A step has a run added if it asks for that, and for no other reason. -/
theorem recorded_step (h : Accounted s octets exit (s.recorded octets exit)) (event : SessionEvent)
    (store : σ) :
    let after := (s.step config now event store).1
    let octets' := octets ++ s.octetsTaken event
    let exit' := exit.or (s.exitTaken event)
    Accounted after octets' exit' (after.recorded octets' exit') ∧
      after.recorded octets' exit' =
        s.recorded octets exit ++ ((s.asks now event).bind (·.2.run?)).toList := by
  intro after octets' exit'
  let ledger : RunLedger σ := { store, runs := s.recorded octets exit }
  have start : Accounted s octets exit ledger.runs := h
  have account := accounted_step config now start event
  obtain ⟨same, runs⟩ := step_ledger config now s event ledger
  simp only [same, runs] at account
  have recorded_eq := account.runs_eq
  exact ⟨recorded_eq ▸ account, recorded_eq.symm⟩

end

/-- A session that has loaded its sheet owns it, and one whose process was started has entered that
phase. -/
def Settled (owned : Prop) (s : Session) : Prop :=
  match s.stage with
  | .opening | .loading | .finished (.error _) => True
  | .publishing _ _ | .uploading _ | .launching _ => owned
  | .draining _ | .recording _ _ | .finished (.ok _) => owned ∧ Phase.draining ∈ s.phases

section

variable {σ : Type} [SheetStore σ] {owned : Prop} {s : Session}

theorem Settled.of_hasLoaded (h : Settled owned s) (loaded : s.stage.hasLoaded = true) : owned := by
  rw [Settled] at h
  cases stage : s.stage with
  | opening | loading =>
      rw [stage] at loaded
      contradiction
  | publishing _ _ | uploading _ | launching _ =>
      rw [stage] at h
      exact h
  | draining _ | recording _ _ =>
      rw [stage] at h
      exact h.1
  | finished result =>
      cases result with
      | error error =>
          rw [stage] at loaded
          contradiction
      | ok summary =>
          rw [stage] at h
          exact h.1

theorem Settled.mono {owned' : Prop} (h : Settled owned s) (imp : owned → owned') :
    Settled owned' s := by
  rw [Settled] at h ⊢
  cases stage : s.stage with
  | opening | loading => trivial
  | publishing _ _ | uploading _ | launching _ =>
      rw [stage] at h
      exact imp h
  | draining _ | recording _ _ =>
      rw [stage] at h
      exact ⟨imp h.1, h.2⟩
  | finished result =>
      rw [stage] at h
      cases result with
      | error error => trivial
      | ok summary => exact ⟨imp h.1, h.2⟩

theorem settled_plan (config : Config) (s : Session) (sheet : Sheet) (owns : owned) :
    Settled owned (s.plan config sheet) := by
  rw [plan]
  split
  · trivial
  · split
    · exact owns
    · exact owns

theorem settled_proceed (config : Config) (now : Int) {store : σ}
    (loads : ∀ sheet, (SheetStore.apply (.getSheet s.sheet s.playground) store).1 = .ok sheet →
      owned) (h : Settled owned s) :
    Settled owned (s.proceed config now store).1 := by
  rw [proceed]
  cases stage : s.stage with
  | opening => trivial
  | loading =>
      simp only
      split
      · next answer => exact settled_plan config s _ (loads _ (by rw [answer]))
      · trivial
  | publishing plan graph =>
      rw [Settled, stage] at h
      simp only [storeGraph_eq]
      split
      · exact h
      · exact h
  | draining d =>
      simp only
      split
      · rw [Settled, stage] at h
        exact h
      · exact h
  | recording record graphEmitted =>
      rw [Settled, stage] at h
      exact ⟨h.1, List.mem_append_left _ h.2⟩
  | uploading _ | launching _ | finished _ => exact h

theorem settled_setUp (config : Config) (h : Settled owned s)
    (outcome : Except SetupFailure Unit) : Settled owned (s.setUp config outcome) := by
  cases stage : s.stage with
  | uploading plan =>
      rw [Settled, stage] at h
      obtain (_ | error) | _ := outcome
      · simp only [setUp, stage]
        trivial
      · simp only [setUp, stage]
        trivial
      · simp only [setUp, stage]
        exact h
  | opening | loading | publishing _ _ | launching _ | draining _ | recording _ _ | finished _ =>
      simpa only [setUp, stage] using h

theorem settled_started (h : Settled owned s) (outcome : Except WorkerError Unit) :
    Settled owned (s.started outcome) := by
  cases stage : s.stage with
  | launching plan =>
      rw [Settled, stage] at h
      obtain error | _ := outcome
      · simp only [started, stage]
        trivial
      · simp only [started, stage]
        exact ⟨h, List.mem_append_right _ (List.mem_singleton_self _)⟩
  | opening | loading | publishing _ _ | uploading _ | draining _ | recording _ _ | finished _ =>
      simpa only [started, stage] using h

/-- A step that goes on draining. -/
theorem settled_modifyDrain (h : Settled owned s) (f : Drain → Drain) :
    Settled owned (s.modifyDrain f) := by
  cases stage : s.stage with
  | draining d =>
      rw [Settled, stage] at h
      simp only [modifyDrain, stage]
      exact h
  | opening | loading | publishing _ _ | uploading _ | launching _ | recording _ _ | finished _ =>
      simpa only [modifyDrain, stage] using h

theorem settled_deliver (h : Settled owned s) {d : Drain} (stage : s.stage = .draining d)
    (stream : OutputStream) (store : σ) : Settled owned (s.deliver d stream store).1 := by
  have draining := h
  rw [Settled, stage] at draining
  rw [deliver]
  split
  · exact h
  all_goals exact draining

/-- Whether a session is settled survives every event. -/
theorem settled_step (config : Config) (now : Int) {store : σ}
    (loads : ∀ sheet, (SheetStore.apply (.getSheet s.sheet s.playground) store).1 = .ok sheet →
      owned) (h : Settled owned s) (event : SessionEvent) :
    Settled owned (s.step config now event store).1 := by
  cases event with
  | proceed => exact settled_proceed config now loads h
  | setUp outcome => exact settled_setUp config h outcome
  | started outcome => exact settled_started h outcome
  | read _ _ | close _ | exited _ => exact settled_modifyDrain h _
  | deliver stream =>
      cases stage : s.stage with
      | draining d => simpa only [step, stage] using settled_deliver h stage stream store
      | opening | loading | publishing _ _ | uploading _ | launching _ | recording _ _
      | finished _ => simpa only [step, stage] using h
  | input _ | stdinWritten | stdinFailed _ => exact h

end

end Session

end AgentWorkbench
