import AgentWorkbench.Proofs.Server.Live

/-!
Nobody sees or changes the sheets of another playground. A request under a playground has the same
response on any two stores that hold the same in it, and leaves the other playgrounds alone; so does
every step of a session, whatever else uses the store between its steps.
-/
namespace AgentWorkbench

namespace AnyStore

variable {s s' : AnyStore} {playground : PlaygroundId} {α : Type} {op : StoreOp α}

/-- What names a sheet of a playground is answered alike by stores that hold the same in it. -/
theorem answer_eq (sound : s.holdings.Sound) (sound' : s'.holdings.Sound)
    (agree : s.holdings.AgreeIn playground s'.holdings) (names : s.holdings.Names playground op)
    (creates_none : op.createdId? = none)
    (next : op.reading?.isSome → s.holdings.lastRun = s'.holdings.lastRun) :
    (SheetStore.apply op s).1 = (SheetStore.apply op s').1 := by
  rw [answer_eq_holdings sound creates_none, answer_eq_holdings sound' creates_none]
  exact agree.answer_eq names next

theorem apply_apart (sound : s.holdings.Sound) (names : s.holdings.Names playground op)
    (creates_none : op.createdId? = none) :
    s.holdings.AgreeOutside playground (SheetStore.apply op s).2.holdings := by
  rw [holdings_apply sound creates_none]
  exact Holdings.agreeOutside_apply sound names

end AnyStore

namespace LiveSession

variable {s s' : AnyStore} {live : LiveSession}

/-- A session asks for a sheet in its playground, and saves and adds only once it owns that. -/
theorem Standing.names {h : Holdings} (standing : live.Standing h) {now : Int}
    {event : SessionEvent} {request : StoreRequest}
    (made : live.session.asks now event = some request) :
    h.Names live.session.playground request.2 ∧ request.2.createdId? = none := by
  cases Session.asks_of_eq_some now live.session made with
  | load stage => exact ⟨rfl, rfl⟩
  | save loaded graph => exact ⟨standing.settled.of_hasLoaded loaded, rfl⟩
  | record stage =>
      have owned := standing.settled.of_hasLoaded (by rw [stage]; rfl)
      refine ⟨?_, rfl⟩
      change h.owns _ live.session.playground = true
      rw [standing.accounted.record_sheet stage]
      exact owned

/-- A step of a session leaves other playgrounds alone. -/
theorem step_apart (config : Config) (now : Int) (sound : s.holdings.Sound)
    (standing : live.Standing s.holdings) (event : SessionEvent) :
    s.holdings.AgreeOutside live.session.playground
      (live.step config now event s).2.holdings := by
  have store : (live.step config now event s).2 = _ :=
    Session.step_store config now live.session event s
  rw [store]
  cases made : live.session.asks now event with
  | none => exact .refl _ _
  | some request =>
      obtain ⟨names, creates_none⟩ := standing.names made
      exact AnyStore.apply_apart sound names creates_none

/-- What becomes of a session depends on what is held in its playground, and on the number that the
next run gets. -/
theorem step_eq_of_agree (config : Config) (now : Int) (sound : s.holdings.Sound)
    (sound' : s'.holdings.Sound) (standing : live.Standing s.holdings)
    (agree : s.holdings.AgreeIn live.session.playground s'.holdings)
    (next : s.holdings.lastRun = s'.holdings.lastRun) (event : SessionEvent) :
    (live.step config now event s).1 = (live.step config now event s').1 := by
  have same : (live.session.step config now event s).1 =
      (live.session.step config now event s').1 := by
    have form := Session.asking config now live.session event
    cases made : live.session.asks now event with
    | none =>
        rw [made] at form
        cases form with
        | nothing same => rw [same, same]
    | some request =>
        obtain ⟨names, creates_none⟩ := standing.names made
        have answer := AnyStore.answer_eq sound sound' agree names creates_none fun _ => next
        rw [made] at form
        cases form with
        | operation next same => rw [same, same, answer]
  let with_session (session : Session) : LiveSession :=
    { session
      octets := live.octets ++ live.session.octetsTaken event
      exit := live.exit.or (live.session.exitTaken event) }
  exact congrArg with_session same

end LiveSession

/-- Playgrounds are isolated. On any two stores that operations made and that hold the same in a
playground, a request under it has the same response; they hold the same in it afterwards, and the
other playgrounds are unchanged. A session with that playground, at work among other sessions and
requests, changes nothing of the others with any step, and no step depends on them. -/
theorem playgrounds_isolated (playground : PlaygroundId) :
    (∀ (backend backend' : Backend) (past past' : List StoreRequest) (fresh : SheetId)
        (r : HttpRequest),
      FreshIds past → FreshIds past' →
      (∀ id ∈ r.createdId? fresh, id ∉ past.filterMap (·.2.createdId?) ∧
        id ∉ past'.filterMap (·.2.createdId?)) →
      r.playground? = some playground →
      let store := backend.storeAfter past
      let store' := backend'.storeAfter past'
      store.holdings.AgreeIn playground store'.holdings →
        (r.respond fresh store).1 = (r.respond fresh store').1 ∧
          (r.respond fresh store).2.holdings.AgreeIn playground
            (r.respond fresh store').2.holdings ∧
          store.holdings.AgreeOutside playground (r.respond fresh store).2.holdings) ∧
    (∀ (backend backend' : Backend) (past past' : List StoreRequest) (config : Config)
        (events : List LiveEvent),
      (past.filterMap (·.2.createdId?) ++ events.filterMap LiveEvent.createdId?).Nodup →
      FreshIds past' →
      let server := LiveServer.run config { store := backend.storeAfter past } events
      let store' := backend'.storeAfter past'
      ∀ live ∈ server.sessions, live.session.playground = playground → ∀ now event,
        server.store.holdings.AgreeOutside playground
            (live.step config now event server.store).2.holdings ∧
          (server.store.holdings.AgreeIn playground store'.holdings →
            server.store.holdings.lastRun = store'.holdings.lastRun →
            (live.step config now event server.store).1 =
              (live.step config now event store').1)) := by
  constructor
  · intro backend backend' past past' fresh r ids ids' unused named store store' agree
    have held := backend.holdings_storeAfter ids
    have held' := backend'.holdings_storeAfter ids'
    exact HttpRequest.respond_isolated held.sound held'.sound
      (fun id created => held.has_eq_false (unused id created).1)
      (fun id created => held'.has_eq_false (unused id created).2) named agree
  · intro backend backend' past past' config events ids ids' server store' live mem same now event
    subst same
    have start := LiveServer.orderly_storeAfter backend (List.nodup_append.mp ids).1
    have orderly : server.Orderly _ := start.run ids
    have standing := orderly.standing live mem
    have sound' := (backend'.holdings_storeAfter ids').sound
    exact ⟨LiveSession.step_apart config now orderly.sound standing event, fun agree next =>
      LiveSession.step_eq_of_agree config now orderly.sound sound' standing agree next event⟩

/-- A sheet in a playground, and a sheet with a run in another one. -/
def besides (other : SheetId) (playground : PlaygroundId) : List StoreRequest :=
  [⟨_, .createSheet ⟨"a"⟩ ⟨"p"⟩ "first" [{ filename := "main.py", code := "a = 1\n" }]⟩,
    ⟨_, .createSheet other playground "other" []⟩,
    ⟨_, .insertRun 951782399 { sheet := other, output := "1" }⟩]

/-- Neither a request for a sheet of another playground nor a session with it finds it. -/
theorem besides_isolated :
    let r : HttpRequest := { method := "GET", target := "/playgrounds/p/sheets/b" }
    let store := Backend.inMemory.storeAfter (besides ⟨"b"⟩ ⟨"q"⟩)
    let store' := Backend.database.storeAfter (besides ⟨"c"⟩ ⟨"r"⟩)
    let events : List LiveEvent := [.start ⟨"b"⟩ ⟨"p"⟩, .act 0 0 .proceed]
    let server := LiveServer.run {} { store } events
    (r.respond ⟨"n"⟩ store).1 = (r.respond ⟨"n"⟩ store').1 ∧
      ∃ live ∈ server.sessions,
        (live.step {} 0 .proceed server.store).1 = (live.step {} 0 .proceed store').1 := by
  intro r store store' events server
  have sheets : store.holdings.sheets =
      [{ id := ⟨"a"⟩, playground := ⟨"p"⟩, title := "first"
         files := [{ filename := "main.py", code := "a = 1\n" }] },
        { id := ⟨"b"⟩, playground := ⟨"q"⟩, title := "other", files := [] }] := rfl
  have agree : store.holdings.AgreeIn ⟨"p"⟩ store'.holdings := by
    refine ⟨rfl, fun k mem inside => ?_⟩
    rw [sheets] at mem
    obtain rfl | rfl : k = _ ∨ k = _ := by simpa using mem
    · rfl
    · exact absurd inside (by decide)
  obtain ⟨requests, sessions⟩ := playgrounds_isolated ⟨"p"⟩
  refine ⟨(requests .inMemory .database (besides ⟨"b"⟩ ⟨"q"⟩) (besides ⟨"c"⟩ ⟨"r"⟩) ⟨"n"⟩ r
    (by decide) (by decide) (by decide +kernel) (by decide +kernel) agree).1, _,
    List.mem_singleton_self _, ?_⟩
  exact (sessions .inMemory .database (besides ⟨"b"⟩ ⟨"q"⟩) (besides ⟨"c"⟩ ⟨"r"⟩) {} events
    (by decide +kernel) (by decide) _ (List.mem_singleton_self _) rfl 0 .proceed).2 agree rfl

end AgentWorkbench
