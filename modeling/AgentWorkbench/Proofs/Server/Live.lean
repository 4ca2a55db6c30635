import AgentWorkbench.Proofs.Api.Serving
import AgentWorkbench.Proofs.Session.Asking

/-!
A server at work: sessions and requests share one store, and their steps come in any order. Beside
the sessions stands what they learned of their processes, and beside the store what was saved and
written. A request or a step of a session is the only thing that changes the store, and each changes
it once at most.
-/
namespace AgentWorkbench

/-- A graph that was saved, and its sheet. -/
def StoreCall.saved? : StoreCall → Option (SheetId × PipelineGraph)
  | saved sheet graph (.ok _) => some (sheet, graph)
  | _ => none

def SessionEffect.saved? (effect : SessionEffect) : Option (SheetId × PipelineGraph) :=
  effect.call?.bind StoreCall.saved?

structure LiveSession where
  session : Session
  /-- What it has taken of the standard output of its process. -/
  octets : List UInt8 := []
  /-- How its process ended, as far as it has learned that. -/
  exit : Option ExitStatus := none

namespace LiveSession

def step {σ : Type} [SheetStore σ] (config : Config) (now : Int) (live : LiveSession)
    (event : SessionEvent) (store : σ) : LiveSession × σ :=
  let (session, store) := live.session.step config now event store
  ({ session
     octets := live.octets ++ live.session.octetsTaken event
     exit := live.exit.or (live.session.exitTaken event) }, store)

/-- The process was started. -/
def isStarted (live : LiveSession) : Bool := live.session.phases.contains .draining

/-- The record of the run, once the process was started and its end is known. -/
def run? (live : LiveSession) : Option RunRecord :=
  if live.isStarted then live.exit.map (.ofOutput live.session.sheet live.octets) else none

/-- The runs that the session has had added. -/
def recorded (live : LiveSession) : List RunRecord :=
  live.session.recorded live.octets live.exit

end LiveSession

structure LiveServer (σ : Type) where
  store : σ
  sessions : List LiveSession := []
  /-- The graphs that were saved, newest first. -/
  saved : List (SheetId × PipelineGraph) := []
  /-- The files that accepted requests wrote, newest first. -/
  written : List WrittenFiles := []

inductive LiveEvent where
  | start (sheet : SheetId) (playground : PlaygroundId)
  /-- A step of a session, at a time. -/
  | act (index : Nat) (now : Int) (event : SessionEvent)
  /-- A request; a sheet that it creates gets the fresh id. -/
  | request (fresh : SheetId) (r : HttpRequest)

def LiveEvent.createdId? : LiveEvent → Option SheetId
  | start _ _ | act _ _ _ => none
  | request fresh r => r.createdId? fresh

namespace LiveServer

section

variable {σ : Type} [SheetStore σ]

def step (config : Config) (server : LiveServer σ) : LiveEvent → LiveServer σ
  | .start sheet playground =>
    { server with sessions := server.sessions ++ [{ session := { sheet, playground } }] }
  | .act index now event =>
    match server.sessions[index]? with
    | none => server
    | some live =>
      let (after, store) := live.step config now event server.store
      { server with
        store
        sessions := server.sessions.set index after
        saved := (live.session.effects config now event server.store).filterMap
          SessionEffect.saved? ++ server.saved }
  | .request fresh r =>
    let (response, store) := r.respond fresh server.store
    { server with store, written := (r.written? fresh response).toList ++ server.written }

def run (config : Config) (server : LiveServer σ) (events : List LiveEvent) : LiveServer σ :=
  events.foldl (step config) server

theorem run_append (config : Config) (server : LiveServer σ) (events : List LiveEvent)
    (event : LiveEvent) :
    run config server (events ++ [event]) = step config (run config server events) event := by
  rw [run, List.foldl_append]
  rfl

end

end LiveServer

namespace LiveSession

/-- What stands of a session while its sheet is held: its account, and that it owns its sheet once
it has loaded it. -/
structure Standing (h : Holdings) (live : LiveSession) : Prop where
  accounted : live.session.Accounted live.octets live.exit live.recorded
  settled : live.session.Settled (h.owns live.session.sheet live.session.playground = true)

/-- What a step of a session makes of what the store holds, by the graphs that it saved. -/
inductive Acted (keeping : Keeping) (now : Int) (h : Holdings) (live after : LiveSession) :
    List (SheetId × PipelineGraph) → Holdings → Prop where
  | quietly (same : after.recorded = live.recorded) : Acted keeping now h live after [] h
  | saving (owned : h.owns live.session.sheet live.session.playground = true)
      (graph : PipelineGraph) (same : after.recorded = live.recorded) :
      Acted keeping now h live after [(live.session.sheet, graph)]
        (h.modify live.session.sheet fun k => { k with graph := keeping.graph graph })
  | adding (owned : h.owns live.session.sheet live.session.playground = true) {run : RunRecord}
      (own : run.sheet = live.session.sheet) (added : after.recorded = live.recorded ++ [run]) :
      Acted keeping now h live after [] (h.addRun keeping now run)

variable {h h' : Holdings} {live : LiveSession}

theorem Standing.mono (standing : live.Standing h)
    (sub : h.sheets.map KeptSheet.owner ⊆ h'.sheets.map KeptSheet.owner) : live.Standing h' where
  accounted := standing.accounted
  settled := standing.settled.mono fun owned =>
    Holdings.owns_iff_mem.mpr (sub (Holdings.owns_iff_mem.mp owned))

theorem Acted.owners {keeping : Keeping} {now : Int} {after : LiveSession}
    {saved : List (SheetId × PipelineGraph)} (acted : Acted keeping now h live after saved h') :
    h'.sheets.map KeptSheet.owner = h.sheets.map KeptSheet.owner := by
  cases acted with
  | quietly _ | adding _ _ _ => rfl
  | saving owned graph same =>
      refine Holdings.owners_modify ?_ _
      exact fun _ => rfl

theorem Acted.sound {keeping : Keeping} (places : keeping.Places) {now : Int} {after : LiveSession}
    {saved : List (SheetId × PipelineGraph)} (acted : Acted keeping now h live after saved h')
    (sound : h.Sound) : h'.Sound := by
  cases acted with
  | quietly _ => exact sound
  | saving owned graph same =>
      refine sound.modify ?_ _
      exact fun _ => rfl
  | adding owned own added =>
      refine sound.addRun places now ?_
      rw [own]
      exact Holdings.has_of_owns owned

/-- What a session saves with a step. -/
theorem saved_effects {σ : Type} [SheetStore σ] (config : Config) (now : Int) (s : Session)
    (event : SessionEvent) (store : σ) :
    (s.effects config now event store).filterMap SessionEffect.saved? =
      ((s.asks now event).bind fun request =>
        (StoreCall.of request.2 (SheetStore.apply request.2 store).1).saved?).toList := by
  have through_calls : (s.effects config now event store).filterMap SessionEffect.saved? =
      ((s.effects config now event store).filterMap SessionEffect.call?).filterMap
        StoreCall.saved? := by
    rw [List.filterMap_filterMap]
    rfl
  rw [through_calls, Session.calls_effects]
  cases s.asks now event with
  | none => rfl
  | some request =>
      rw [Option.toList_some, List.map_singleton, List.filterMap_cons, Option.bind_some]
      split <;> next saved => rw [saved]; rfl

/-- A session saves and adds for its own sheet alone. -/
theorem acted {s : AnyStore} (config : Config) (now : Int) (sound : s.holdings.Sound)
    (standing : live.Standing s.holdings) (event : SessionEvent) :
    Acted s.keeping now s.holdings live (live.step config now event s).1
      ((live.session.effects config now event s).filterMap SessionEffect.saved?)
      (live.step config now event s).2.holdings := by
  have recorded : (live.step config now event s).1.recorded = _ :=
    (Session.recorded_step config now standing.accounted event s).2
  have store : (live.step config now event s).2 = _ :=
    Session.step_store config now live.session event s
  rw [saved_effects, store]
  cases made : live.session.asks now event with
  | none =>
      rw [made] at recorded
      exact .quietly (recorded.trans (List.append_nil _))
  | some request =>
      rw [made] at recorded
      cases Session.asks_of_eq_some now live.session made with
      | load stage =>
          simp only [StableReads.apply_getSheet]
          exact .quietly (recorded.trans (List.append_nil _))
      | save loaded graph =>
          have owned := standing.settled.of_hasLoaded loaded
          obtain ⟨answer, left⟩ :=
            AnyStore.apply_saveGraph sound (Holdings.has_of_owns owned) graph
          rw [Option.bind_some, answer, left]
          exact .saving owned graph (recorded.trans (List.append_nil _))
      | record stage =>
          have owned := standing.settled.of_hasLoaded (by rw [stage]; rfl)
          have own := standing.accounted.record_sheet stage
          obtain ⟨-, left⟩ := AnyStore.apply_insertRun sound
            (own ▸ Holdings.has_of_owns owned) now
          rw [left]
          exact .adding owned own recorded

/-- The account of a session goes on with every step. -/
theorem standing_step {s : AnyStore} (config : Config) (now : Int) (sound : s.holdings.Sound)
    (standing : live.Standing s.holdings) (event : SessionEvent) :
    (live.step config now event s).1.Standing (live.step config now event s).2.holdings := by
  obtain ⟨calls, messages, phases, spec⟩ :=
    Session.exists_stepSpec config now live.session event s
  have settled := Session.settled_step config now (fun sheet got =>
    Holdings.owns_of_getSheet ((AnyStore.shows_holdings sound).getSheet _ _ ▸ got))
    standing.settled event
  rw [← spec.sheet, ← spec.playground] at settled
  have same : Standing s.holdings (live.step config now event s).1 :=
    ⟨(Session.recorded_step config now standing.accounted event s).1, settled⟩
  refine same.mono ?_
  rw [(acted config now sound standing event).owners]
  exact List.Subset.refl _

theorem standing_start (h : Holdings) (sheet : SheetId) (playground : PlaygroundId) :
    Standing h { session := { sheet, playground } } where
  accounted := (Session.accounted_early rfl).mpr ⟨List.not_mem_nil, rfl, rfl, rfl⟩
  settled := trivial

theorem keeping_step (config : Config) (now : Int) (live : LiveSession) (event : SessionEvent)
    (s : AnyStore) : (live.step config now event s).2.keeping = s.keeping := by
  have store : (live.step config now event s).2 = _ :=
    Session.step_store config now live.session event s
  rw [store]
  split
  · rfl
  · exact AnyStore.keeping_apply _ s

end LiveSession

namespace LiveServer

/-- The store is sound, holds no sheet under an id that was not used, and every session stands. -/
structure Orderly (used : List SheetId) (server : LiveServer AnyStore) : Prop where
  sound : server.store.holdings.Sound
  known : ∀ k ∈ server.store.holdings.sheets, k.id ∈ used
  standing : ∀ live ∈ server.sessions, live.Standing server.store.holdings

section

variable {config : Config} {used : List SheetId} {server : LiveServer AnyStore}

theorem Orderly.unused (orderly : server.Orderly used) {id : SheetId} (fresh : id ∉ used) :
    server.store.holdings.has id = false :=
  Holdings.has_eq_false_iff.mpr fun k mem same => fresh (same ▸ orderly.known k mem)

theorem step_act {index : Nat} {live : LiveSession} (acting : server.sessions[index]? = some live)
    (config : Config) (now : Int) (event : SessionEvent) :
    server.step config (.act index now event) =
      { server with
        store := (live.step config now event server.store).2
        sessions := server.sessions.set index (live.step config now event server.store).1
        saved := (live.session.effects config now event server.store).filterMap
          SessionEffect.saved? ++ server.saved } := by
  rw [step, acting]

theorem Orderly.act (orderly : server.Orderly used) (index : Nat) (now : Int)
    (event : SessionEvent) : (server.step config (.act index now event)).Orderly used := by
  cases acting : server.sessions[index]? with
  | none =>
      rw [step, acting]
      exact orderly
  | some live =>
      have standing := orderly.standing live (List.mem_of_getElem? acting)
      have acted := LiveSession.acted config now orderly.sound standing event
      rw [step_act acting]
      refine ⟨acted.sound server.store.keeping_places orderly.sound, ?_, ?_⟩
      · intro k mem
        have there : k.owner ∈ server.store.holdings.sheets.map KeptSheet.owner :=
          acted.owners ▸ List.mem_map_of_mem mem
        obtain ⟨k', mem', same⟩ := List.mem_map.mp there
        have same_id : k'.id = k.id := congrArg Prod.fst same
        exact same_id ▸ orderly.known k' mem'
      · intro other mem
        obtain mem | rfl := List.mem_or_eq_of_mem_set mem
        · refine (orderly.standing other mem).mono ?_
          rw [acted.owners]
          exact List.Subset.refl _
        · exact LiveSession.standing_step config now orderly.sound standing event

theorem Orderly.request (orderly : server.Orderly used) {fresh : SheetId} {r : HttpRequest}
    (unused : ∀ id ∈ r.createdId? fresh, id ∉ used) :
    (server.step config (.request fresh r)).Orderly (used ++ (r.createdId? fresh).toList) := by
  have unused (id : SheetId) (created : id ∈ r.createdId? fresh) :
      server.store.holdings.has id = false := orderly.unused (unused id created)
  have served := HttpRequest.respond_served orderly.sound unused
  refine ⟨served.sound orderly.sound ?_, fun k mem => ?_, fun live mem => ?_⟩
  · exact fun write written created =>
      unused write.sheet (HttpRequest.createdId?_of_written? written created)
  · obtain there | ⟨write, written, created, same⟩ := served.has_or_created mem
    · obtain ⟨k', mem', same⟩ := Holdings.has_iff.mp there
      exact List.mem_append_left _ (same ▸ orderly.known k' mem')
    · rw [← same, HttpRequest.createdId?_of_written? written created]
      exact List.mem_append_right _ (List.mem_singleton_self _)
  · exact (orderly.standing live mem).mono served.owners_subset

theorem Orderly.step (orderly : server.Orderly used) {event : LiveEvent}
    (fresh : ∀ id ∈ event.createdId?, id ∉ used) :
    (server.step config event).Orderly (used ++ event.createdId?.toList) := by
  cases event with
  | start sheet playground =>
      rw [LiveEvent.createdId?, Option.toList_none, List.append_nil]
      refine ⟨orderly.sound, orderly.known, ?_⟩
      exact List.forall_mem_append.mpr
        ⟨orderly.standing, List.forall_mem_singleton.mpr (LiveSession.standing_start _ _ _)⟩
  | act index now event =>
      rw [LiveEvent.createdId?, Option.toList_none, List.append_nil]
      exact orderly.act index now event
  | request id r => exact orderly.request fresh

theorem orderly_storeAfter (backend : Backend) {past : List StoreRequest}
    (fresh : FreshIds past) :
    Orderly (past.filterMap (·.2.createdId?)) { store := backend.storeAfter past } where
  sound := (backend.holdings_storeAfter fresh).sound
  known _ mem := (backend.holdings_storeAfter fresh).ids ▸ List.mem_map_of_mem mem
  standing _ mem := absurd mem List.not_mem_nil

/-- What every step of an orderly server keeps holds after every run. -/
theorem run_invariant {P : LiveServer AnyStore → Prop} (orderly : server.Orderly used)
    (start : P server)
    (keeps : ∀ {used server} {event : LiveEvent}, server.Orderly used →
      (∀ id ∈ event.createdId?, id ∉ used) → P server → P (server.step config event))
    {events : List LiveEvent} (fresh : (used ++ events.filterMap LiveEvent.createdId?).Nodup) :
    (run config server events).Orderly (used ++ events.filterMap LiveEvent.createdId?) ∧
      P (run config server events) := by
  induction events using List.reverseRecOn with
  | nil => exact ⟨(List.append_nil used).symm ▸ orderly, start⟩
  | append_singleton events event ih =>
      have ids : (events ++ [event]).filterMap LiveEvent.createdId? =
          events.filterMap LiveEvent.createdId? ++ event.createdId?.toList := by
        rw [List.filterMap_append]
        cases created : event.createdId? <;> simp [created]
      rw [ids, ← List.append_assoc] at fresh ⊢
      obtain ⟨fresh, -, apart⟩ := List.nodup_append.mp fresh
      obtain ⟨orderly, holds⟩ := ih fresh
      have unused (id : SheetId) (created : id ∈ event.createdId?) :
          id ∉ used ++ events.filterMap LiveEvent.createdId? := fun mem =>
        apart id mem id (Option.mem_toList.mpr created) rfl
      rw [run_append]
      exact ⟨orderly.step unused, keeps orderly unused holds⟩

theorem Orderly.run (orderly : server.Orderly used) {events : List LiveEvent}
    (fresh : (used ++ events.filterMap LiveEvent.createdId?).Nodup) :
    (run config server events).Orderly (used ++ events.filterMap LiveEvent.createdId?) :=
  (run_invariant (P := fun _ => True) orderly trivial (fun _ _ _ => trivial) fresh).1

end

end LiveServer

end AgentWorkbench
