import AgentWorkbench.Proofs.Server.Ledger

/-!
What is left of sessions and requests that shared a store, once all the sessions have ended. Every
sheet has the runs of the sessions that were started on it, each once, with what its own process
wrote; it has the graph that was saved last and the files that were written last. Graphs and timings
in a database are what their JSON texts read back as, and that may be another number in the last
digit.
-/
namespace AgentWorkbench

namespace LiveSession

def hasEnded (live : LiveSession) : Bool := live.session.result?.isSome

variable {h : Holdings} {live : LiveSession}

/-- A session that has completed had its process started, knows how it ended, and owns its sheet. -/
theorem Standing.started_of_completed (standing : live.Standing h) {summary : RunSummary}
    (stage : live.session.stage = .finished (.ok summary)) :
    live.isStarted = true ∧ live.exit.isSome = true ∧
      h.owns live.session.sheet live.session.playground = true := by
  have settled := standing.settled
  rw [Session.Settled, stage] at settled
  obtain ⟨status, exit, -⟩ := (Session.accounted_completed stage).mp standing.accounted
  exact ⟨List.contains_iff_mem.mpr settled.2, by rw [exit]; rfl, settled.1⟩

theorem Standing.unstarted_of_failed (standing : live.Standing h) {error : SessionError}
    (stage : live.session.stage = .finished (.error error)) : live.isStarted = false := by
  have account := (Session.accounted_failed stage).mp standing.accounted
  rw [isStarted, ← Bool.not_eq_true, List.contains_iff_mem]
  exact account.not_entered

/-- An ended session has completed or has failed. -/
theorem stage_of_hasEnded (ended : live.hasEnded = true) :
    (∃ summary, live.session.stage = .finished (.ok summary)) ∨
      ∃ error, live.session.stage = .finished (.error error) := by
  rw [hasEnded, Session.result?] at ended
  split at ended
  · next result stage =>
      cases result with
      | ok summary => exact .inl ⟨summary, stage⟩
      | error error => exact .inr ⟨error, stage⟩
  · contradiction

/-- An ended session has had its run added, if there was one. -/
theorem Standing.recorded_of_hasEnded (standing : live.Standing h) (ended : live.hasEnded = true) :
    live.recorded = live.run?.toList := by
  rw [recorded, Session.recorded, run?]
  obtain ⟨summary, stage⟩ | ⟨error, stage⟩ := stage_of_hasEnded ended
  · rw [stage, if_pos (standing.started_of_completed stage).1]
  · rw [stage, standing.unstarted_of_failed stage]
    rfl

/-- A session whose process was started has a run, for a sheet that it owns. -/
theorem Standing.run?_of_hasEnded (standing : live.Standing h) (ended : live.hasEnded = true)
    (started : live.isStarted = true) :
    live.run?.isSome = true ∧ h.owns live.session.sheet live.session.playground = true := by
  obtain ⟨summary, stage⟩ | ⟨error, stage⟩ := stage_of_hasEnded ended
  · obtain ⟨-, exit, owned⟩ := standing.started_of_completed stage
    rw [run?, if_pos started, Option.isSome_map]
    exact ⟨exit, owned⟩
  · rw [standing.unstarted_of_failed stage] at started
    contradiction

/-- The run of a session is for its sheet. -/
theorem filter_run? (live : LiveSession) (id : SheetId) :
    live.run?.filter (·.sheet = id) =
      if live.isStarted && live.session.sheet = id then live.run? else none := by
  cases started : live.isStarted with
  | false => rw [run?, started]; rfl
  | true =>
      rw [run?, started]
      cases live.exit with
      | none => simp
      | some status => simp [Option.filter, RunRecord.ofOutput]

end LiveSession

namespace LiveServer

/-- The sessions whose processes were started on a sheet. -/
def startedOn (sessions : List LiveSession) (id : SheetId) : List LiveSession :=
  sessions.filter fun live => live.isStarted && live.session.sheet = id

/-- The runs that ended sessions had added to a sheet are those of the sessions started on it. -/
theorem recorded_on {sessions : List LiveSession}
    (recorded : ∀ live ∈ sessions, live.recorded = live.run?.toList) (id : SheetId) :
    (sessions.flatMap LiveSession.recorded).filter (·.sheet = id) =
      (startedOn sessions id).filterMap LiveSession.run? := by
  have all : sessions.flatMap LiveSession.recorded = sessions.filterMap LiveSession.run? := by
    rw [List.filterMap_eq_flatMap_toList]
    exact List.flatMap_congr recorded
  rw [all, startedOn, List.filter_filterMap, List.filterMap_filter]
  exact List.filterMap_congr fun live _ => live.filter_run? id

end LiveServer

/-- A store has all that sessions and requests gave it: what is started is run and kept, once and on
its own sheet, and what was saved and written last is there. -/
structure NothingLost (keeping : Keeping) (server : LiveServer AnyStore) (h : Holdings) : Prop where
  shown : Shows server.store h
  started : ∀ live ∈ server.sessions, live.isStarted = true →
    live.run?.isSome = true ∧ h.owns live.session.sheet live.session.playground = true
  runs : ∀ id, ((h.runs id).map (·.record)).Perm
    (((LiveServer.startedOn server.sessions id).filterMap LiveSession.run?).map keeping.record)
  graphs : ∀ k ∈ h.sheets,
    k.graph = keeping.lastGraph ((server.saved.find? (·.1 = k.id)).map Prod.snd)
  files : ∀ k ∈ h.sheets,
    ∃ write, server.written.find? (·.sheet = k.id) = some write ∧ write.files = k.files

/-- What a sheet's runs have as output is what the processes of its sessions wrote. -/
theorem NothingLost.outputs {keeping : Keeping} {server : LiveServer AnyStore} {h : Holdings}
    (kept : NothingLost keeping server h) (id : SheetId) :
    ((h.runs id).map (·.record.output)).Perm
      (((LiveServer.startedOn server.sessions id).filterMap LiveSession.run?).map (·.output)) := by
  have runs := (kept.runs id).map KeptRecord.output
  rwa [List.map_map, List.map_map] at runs

/-- Sessions at work together lose nothing of each other, nor of the requests between their
steps. -/
theorem ended_sessions_lose_nothing (backend : Backend) (config : Config) (events : List LiveEvent)
    (fresh : (events.filterMap LiveEvent.createdId?).Nodup) :
    let server := LiveServer.run config { store := backend.emptyStore } events
    (∀ live ∈ server.sessions, live.hasEnded = true) →
      NothingLost backend.keeping server server.store.holdings := by
  intro server ended
  obtain ⟨orderly, booked⟩ := LiveServer.booked_run backend config fresh
  have recorded (live : LiveSession) (mem : live ∈ server.sessions) :
      live.recorded = live.run?.toList :=
    (orderly.standing live mem).recorded_of_hasEnded (ended live mem)
  exact {
    shown := AnyStore.shows_holdings orderly.sound
    started live mem := (orderly.standing live mem).run?_of_hasEnded (ended live mem)
    runs id := LiveServer.recorded_on recorded id ▸ booked.runs id
    graphs := booked.graphs.last
    files := booked.files.last }

/-- A sheet with a program is created. -/
def programCreation : LiveEvent :=
  .request ⟨"a"⟩ {
    method := "POST"
    target := "/playgrounds/p/sheets"
    headers := [("content-type", "application/json")]
    body := "\x7b\"title\":\"t\",\"files\":[\x7b\"filename\":\"main.py\",\"code\":\"a = 1\"," ++
      "\"language\":\"python\"\x7d]\x7d" }

/-- The files of the sheet are replaced. -/
def programReplacement : LiveEvent :=
  .request ⟨"b"⟩ {
    method := "PUT"
    target := "/playgrounds/p/sheets/a/files"
    headers := [("content-type", "application/json")]
    body := "\x7b\"files\":[\x7b\"filename\":\"main.py\",\"code\":\"b = 2\"\x7d]\x7d" }

def acts (index : Nat) (events : List SessionEvent) : List LiveEvent := events.map (.act index 0)

/-- The process writes a text of single octets, which is taken. -/
def printed (text : String) : List SessionEvent :=
  [.read .stdout (text.toList.map (·.toNat.toUInt8)), .deliver .stdout, .deliver .stdout]

def exitEvents : List SessionEvent :=
  [.close .stdout, .close .stderr, .exited (.code 0), .proceed, .proceed]

/-- Two sessions on a sheet and one that does not find it, with a request among their steps. -/
def threeSessions : List LiveEvent :=
  [programCreation, .start ⟨"a"⟩ ⟨"p"⟩, .start ⟨"a"⟩ ⟨"p"⟩, .start ⟨"a"⟩ ⟨"q"⟩] ++
    acts 0 Session.startEvents ++ acts 1 Session.startEvents ++ acts 2 [.proceed, .proceed] ++
    acts 1 (printed "2") ++ acts 0 (printed "1") ++ acts 1 exitEvents ++ [programReplacement] ++
    acts 0 exitEvents

theorem threeSessions_lose_nothing :
    let server := LiveServer.run {} { store := Backend.database.emptyStore } threeSessions
    (threeSessions.filterMap LiveEvent.createdId?).Nodup ∧
      (∀ live ∈ server.sessions, live.hasEnded = true) ∧
      NothingLost .relational server server.store.holdings ∧
      ((server.store.holdings.runs ⟨"a"⟩).map (·.record.output)).Perm ["1", "2"] := by
  intro server
  have fresh : (threeSessions.filterMap LiveEvent.createdId?).Nodup := by decide +kernel
  have ended : ∀ live ∈ server.sessions, live.hasEnded = true := by decide +kernel
  have kept : NothingLost .relational server server.store.holdings :=
    ended_sessions_lose_nothing .database {} threeSessions fresh ended
  have outputs : ((LiveServer.startedOn server.sessions ⟨"a"⟩).filterMap LiveSession.run?).map
      (·.output) = ["1", "2"] := by decide +kernel
  refine ⟨fresh, ended, kept, ?_⟩
  rw [← outputs]
  exact kept.outputs ⟨"a"⟩

/-- The abscissas of the nodes of a graph. -/
def abscissas (graph : PipelineGraph) : List Binary64 := graph.nodes.map (·.position.x)

/-- A process prints a graph with a small number in it. -/
def smallNumber : List LiveEvent :=
  [programCreation, .start ⟨"a"⟩ ⟨"p"⟩] ++
    acts 0 (Session.startEvents ++ printed ("---GRAPH_STRUCTURE_BEGIN---\n" ++
      "\x7b\"nodes\":[\x7b\"id\":\"a\",\"label\":\"a\"," ++
      "\"position\":\x7b\"x\":7e-31,\"y\":0\x7d\x7d],\"edges\":[]\x7d" ++
      "\n---GRAPH_STRUCTURE_END---\n") ++ [.deliver .stdout, .deliver .stdout] ++ exitEvents)

/-- A database holds another graph than the one that was saved last. -/
theorem smallNumber_changed :
    let server := LiveServer.run {} { store := Backend.database.emptyStore } smallNumber
    (smallNumber.filterMap LiveEvent.createdId?).Nodup ∧
      (∀ live ∈ server.sessions, live.hasEnded = true) ∧
      ∃ k ∈ server.store.holdings.sheets, ∃ save ∈ server.saved.find? (·.1 = k.id),
        k.graph ≠ .ok (some save.2) := by
  intro server
  have changed : (∀ live ∈ server.sessions, live.hasEnded = true) ∧
      ∃ k ∈ server.store.holdings.sheets, ∃ save ∈ server.saved.find? (·.1 = k.id),
        k.graph.toOption.join.map abscissas ≠ some (abscissas save.2) := by decide +kernel
  obtain ⟨ended, k, mem, save, last, differ⟩ := changed
  refine ⟨by decide +kernel, ended, k, mem, save, last, fun same => differ ?_⟩
  rw [same]
  rfl

end AgentWorkbench
