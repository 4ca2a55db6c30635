import AgentWorkbench.Proofs.Server.Live

/-!
What a server that began with an empty store has on its books. The files of a sheet are those that
were written last, its graph is the one that was saved last, and its runs are those that sessions
had added: nothing that one session or request stored is lost through another.
-/
namespace AgentWorkbench

/-- What reading the graph back gives that was saved last, if one was. -/
def Keeping.lastGraph (keeping : Keeping) :
    Option PipelineGraph → Except StorageError (Option PipelineGraph)
  | some graph => keeping.graph graph
  | none => .ok none

theorem Holdings.mem_modify {h : Holdings} {id : SheetId} {f : KeptSheet → KeptSheet}
    {k : KeptSheet} (mem : k ∈ (h.modify id f).sheets) :
    ∃ before ∈ h.sheets, k = if before.id = id then f before else before := by
  obtain ⟨before, held, made⟩ := List.mem_map.mp mem
  exact ⟨before, held, made.symm⟩

/-- Every sheet has a title, and the files that were written last for it. -/
structure FilesBooked (written : List WrittenFiles) (h : Holdings) : Prop where
  titled : ∀ k ∈ h.sheets, Text.isBlankText k.title = false
  named : ∀ write ∈ written, write.created = false →
    write.files.any (Text.isBlankText ·.filename) = false
  last : ∀ k ∈ h.sheets,
    ∃ write, written.find? (·.sheet = k.id) = some write ∧ write.files = k.files

/-- Every sheet has the graph that was saved last for it. -/
structure GraphsBooked (keeping : Keeping) (saved : List (SheetId × PipelineGraph))
    (h : Holdings) : Prop where
  held : ∀ save ∈ saved, h.has save.1 = true
  last : ∀ k ∈ h.sheets,
    k.graph = keeping.lastGraph ((saved.find? (·.1 = k.id)).map Prod.snd)

/-- Every sheet has the runs that sessions had added to it. -/
def RunsBooked (keeping : Keeping) (sessions : List LiveSession) (h : Holdings) : Prop :=
  ∀ id, ((h.runs id).map (·.record)).Perm
    (((sessions.flatMap LiveSession.recorded).filter (·.sheet = id)).map keeping.record)

section

variable {keeping : Keeping} {now : Int} {h h' : Holdings} {live after : LiveSession}
  {saves saved : List (SheetId × PipelineGraph)} {written : List WrittenFiles}
  {fresh : SheetId} {write? : Option WrittenFiles} {sessions : List LiveSession}

theorem FilesBooked.acted (booked : FilesBooked written h)
    (acted : live.Acted keeping now h after saves h') : FilesBooked written h' := by
  cases acted with
  | quietly _ | adding _ _ _ => exact ⟨booked.titled, booked.named, booked.last⟩
  | saving owned graph same =>
      refine ⟨fun k mem => ?_, booked.named, fun k mem => ?_⟩
      all_goals
        obtain ⟨before, held, rfl⟩ := Holdings.mem_modify mem
      · have titled := booked.titled before held
        split <;> exact titled
      · have last := booked.last before held
        split <;> exact last

theorem FilesBooked.served (booked : FilesBooked written h)
    (unused : ∀ write ∈ write?, write.created = true → h.has write.sheet = false)
    (served : Served h fresh write? h') : FilesBooked (write?.toList ++ written) h' := by
  cases served with
  | nothing => exact booked
  | created playground titled files =>
      have absent := unused _ rfl rfl
      refine ⟨?_, ?_, ?_⟩
      · exact List.forall_mem_append.mpr
          ⟨booked.titled, List.forall_mem_singleton.mpr titled⟩
      · exact List.forall_mem_cons.mpr ⟨by simp, booked.named⟩
      · refine List.forall_mem_append.mpr ⟨fun k mem => ?_, List.forall_mem_singleton.mpr ?_⟩
        · obtain ⟨write, last, files_eq⟩ := booked.last k mem
          have other : fresh ≠ k.id := (Holdings.has_eq_false_iff.mp absent k mem).symm
          exact ⟨write, by simpa [other] using last, files_eq⟩
        · exact ⟨{ sheet := fresh, files, created := true }, by simp, rfl⟩
  | @replaced k mem files named =>
      refine ⟨fun k' mem' => ?_, ?_, fun k' mem' => ?_⟩
      · obtain ⟨before, held, rfl⟩ := Holdings.mem_modify mem'
        have titled := booked.titled before held
        split <;> exact titled
      · exact List.forall_mem_cons.mpr ⟨fun _ => named, booked.named⟩
      · obtain ⟨before, held, rfl⟩ := Holdings.mem_modify mem'
        by_cases here : before.id = k.id
        · rw [if_pos here]
          exact ⟨{ sheet := k.id, files, created := false }, by simp [here], rfl⟩
        · rw [if_neg here]
          obtain ⟨write, last, files_eq⟩ := booked.last before held
          exact ⟨write, by simpa [Ne.symm here] using last, files_eq⟩

theorem GraphsBooked.acted (booked : GraphsBooked keeping saved h)
    (acted : live.Acted keeping now h after saves h') :
    GraphsBooked keeping (saves ++ saved) h' := by
  have has (id : SheetId) : h'.has id = h.has id := Holdings.has_eq_of_owners acted.owners id
  cases acted with
  | quietly _ | adding _ _ _ => exact ⟨booked.held, booked.last⟩
  | saving owned graph same =>
      refine ⟨?_, fun k mem => ?_⟩
      · exact List.forall_mem_cons.mpr
          ⟨(has _).trans (Holdings.has_of_owns owned), fun save mem =>
            (has _).trans (booked.held save mem)⟩
      · obtain ⟨before, held, rfl⟩ := Holdings.mem_modify mem
        by_cases here : before.id = live.session.sheet
        · rw [if_pos here]
          simp [here, Keeping.lastGraph]
        · rw [if_neg here]
          simpa [Ne.symm here] using booked.last before held

theorem GraphsBooked.served (booked : GraphsBooked keeping saved h)
    (unused : ∀ write ∈ write?, write.created = true → h.has write.sheet = false)
    (served : Served h fresh write? h') : GraphsBooked keeping saved h' := by
  refine ⟨fun save mem => ?_, ?_⟩
  · obtain ⟨k, held, same⟩ := Holdings.has_iff.mp (booked.held save mem)
    have there : k.owner ∈ h'.sheets.map KeptSheet.owner :=
      served.owners_subset (List.mem_map_of_mem held)
    obtain ⟨k', held', same'⟩ := List.mem_map.mp there
    exact Holdings.has_iff.mpr ⟨k', held', (congrArg Prod.fst same').trans same⟩
  · cases served with
    | nothing => exact booked.last
    | created playground titled files =>
        refine List.forall_mem_append.mpr ⟨booked.last, List.forall_mem_singleton.mpr ?_⟩
        have absent : h.has fresh = false := unused _ rfl rfl
        have none_saved : saved.find? (·.1 = fresh) = none :=
          List.find?_eq_none.mpr fun save mem same => by
            have held := booked.held save mem
            rw [of_decide_eq_true same, absent] at held
            contradiction
        simp [none_saved, Keeping.lastGraph]
    | replaced mem named =>
        intro k mem'
        obtain ⟨before, held, rfl⟩ := Holdings.mem_modify mem'
        have last := booked.last before held
        split <;> exact last

/-- When a session has more runs added, there are the same runs more in all. -/
theorem flatMap_recorded_set {index : Nat} (acting : sessions[index]? = some live)
    {more : List RunRecord} (added : after.recorded = live.recorded ++ more) :
    ((sessions.set index after).flatMap LiveSession.recorded).Perm
      (more ++ sessions.flatMap LiveSession.recorded) := by
  obtain ⟨within, here⟩ := List.getElem?_eq_some_iff.mp acting
  obtain ⟨before, rest, cut, -, changed⟩ := @List.exists_of_set _ index after sessions within
  have moved : (before.flatMap LiveSession.recorded ++ live.recorded ++ more ++
      rest.flatMap LiveSession.recorded).Perm
      (more ++ (before.flatMap LiveSession.recorded ++ live.recorded) ++
        rest.flatMap LiveSession.recorded) :=
    List.perm_append_comm.append_right _
  rw [changed, cut, here]
  simpa [added] using moved

theorem RunsBooked.acted (places : keeping.Places) (booked : RunsBooked keeping sessions h)
    {index : Nat} (acting : sessions[index]? = some live)
    (acted : live.Acted keeping now h after saves h') :
    RunsBooked keeping (sessions.set index after) h' := by
  intro id
  cases acted with
  | quietly same | saving owned graph same =>
      have all := flatMap_recorded_set acting (same.trans (List.append_nil _).symm)
      exact (booked id).trans ((all.filter _).map _).symm
  | @adding owned run own added =>
      have all := flatMap_recorded_set acting added
      obtain ⟨newer, older, cut, runs⟩ := Holdings.addRun_runs places h now run
      refine .trans ?_ ((all.filter _).map _).symm
      rw [runs]
      by_cases here : id = run.sheet
      · subst here
        have placed : (newer ++ keeping.newRun (h.lastRun + 1) now run :: older).Perm
            (keeping.newRun (h.lastRun + 1) now run :: h.runs run.sheet) :=
          cut ▸ List.perm_middle
        rw [Function.update_self]
        refine (placed.map _).trans ?_
        simpa [Keeping.newRun] using booked run.sheet
      · rw [Function.update_of_ne here]
        simpa [Ne.symm here] using booked id

theorem RunsBooked.served (booked : RunsBooked keeping sessions h)
    (served : Served h fresh write? h') : RunsBooked keeping sessions h' := by
  cases served with
  | nothing | created _ _ _ | replaced _ _ => exact booked

end

namespace LiveServer

/-- The store holds what was written, saved and added. -/
structure Booked (keeping : Keeping) (server : LiveServer AnyStore) : Prop where
  keeping_eq : server.store.keeping = keeping
  files : FilesBooked server.written server.store.holdings
  graphs : GraphsBooked keeping server.saved server.store.holdings
  runs : RunsBooked keeping server.sessions server.store.holdings

variable {config : Config} {used : List SheetId} {server : LiveServer AnyStore}
  {keeping : Keeping}

theorem booked_empty (backend : Backend) :
    Booked backend.keeping { store := backend.emptyStore } where
  keeping_eq := backend.keeping_storeAfter []
  files := by
    rw [backend.holdings_emptyStore]
    exact ⟨by simp, by simp, by simp⟩
  graphs := by
    rw [backend.holdings_emptyStore]
    exact ⟨by simp, by simp⟩
  runs id := by
    rw [backend.holdings_emptyStore]
    exact .refl _

theorem Booked.start (booked : server.Booked keeping) (sheet : SheetId)
    (playground : PlaygroundId) :
    (server.step config (.start sheet playground)).Booked keeping where
  keeping_eq := booked.keeping_eq
  files := booked.files
  graphs := booked.graphs
  runs id := by
    let new : LiveSession := { session := { sheet, playground } }
    have none_added : (server.sessions ++ [new]).flatMap LiveSession.recorded =
        server.sessions.flatMap LiveSession.recorded := by
      rw [List.flatMap_append]
      exact List.append_nil _
    rw [step, none_added]
    exact booked.runs id

theorem Booked.act (booked : server.Booked keeping) (orderly : server.Orderly used) (index : Nat)
    (now : Int) (event : SessionEvent) :
    (server.step config (.act index now event)).Booked keeping := by
  cases acting : server.sessions[index]? with
  | none =>
      rw [step, acting]
      exact booked
  | some live =>
      have standing := orderly.standing live (List.mem_of_getElem? acting)
      have acted := LiveSession.acted config now orderly.sound standing event
      rw [booked.keeping_eq] at acted
      have places : keeping.Places := booked.keeping_eq ▸ server.store.keeping_places
      rw [step_act acting]
      exact {
        keeping_eq := (live.keeping_step config now event _).trans booked.keeping_eq
        files := booked.files.acted acted
        graphs := booked.graphs.acted acted
        runs := booked.runs.acted places acting acted }

theorem Booked.request (booked : server.Booked keeping) (orderly : server.Orderly used)
    {fresh : SheetId} {r : HttpRequest} (unused : ∀ id ∈ r.createdId? fresh, id ∉ used) :
    (server.step config (.request fresh r)).Booked keeping := by
  have unused (id : SheetId) (created : id ∈ r.createdId? fresh) :
      server.store.holdings.has id = false := orderly.unused (unused id created)
  have served := HttpRequest.respond_served orderly.sound unused
  have absent (write : WrittenFiles)
      (written : write ∈ r.written? fresh (r.respond fresh server.store).1)
      (created : write.created = true) : server.store.holdings.has write.sheet = false :=
    unused write.sheet (HttpRequest.createdId?_of_written? written created)
  exact {
    keeping_eq := (r.respond_keeping fresh server.store).trans booked.keeping_eq
    files := booked.files.served absent served
    graphs := booked.graphs.served absent served
    runs := booked.runs.served served }

theorem Booked.step (booked : server.Booked keeping) (orderly : server.Orderly used)
    {event : LiveEvent} (fresh : ∀ id ∈ event.createdId?, id ∉ used) :
    (server.step config event).Booked keeping := by
  cases event with
  | start sheet playground => exact booked.start sheet playground
  | act index now event => exact booked.act orderly index now event
  | request id r => exact booked.request orderly fresh

/-- Whatever sessions and requests do to an empty store, and in whatever order, it is on the
books. -/
theorem booked_run (backend : Backend) (config : Config) {events : List LiveEvent}
    (fresh : (events.filterMap LiveEvent.createdId?).Nodup) :
    let server := run config { store := backend.emptyStore } events
    server.Orderly (events.filterMap LiveEvent.createdId?) ∧ server.Booked backend.keeping := by
  intro server
  have none_yet : FreshIds [] := List.nodup_nil
  have start : Orderly [] { store := backend.emptyStore } := orderly_storeAfter backend none_yet
  exact run_invariant start (booked_empty backend)
    (fun orderly unused booked => booked.step orderly unused) (by simpa using fresh)

end LiveServer

end AgentWorkbench
