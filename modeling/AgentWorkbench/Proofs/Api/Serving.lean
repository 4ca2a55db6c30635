import AgentWorkbench.Proofs.Api.Requests
import AgentWorkbench.Proofs.Store.Isolation
import AgentWorkbench.Proofs.Store.Reading
import AgentWorkbench.Proofs.Store.Writes

/-!
What a request over HTTP makes of a store. One that is not accepted leaves the store as it was. One
that is accepted may add a sheet, or give a sheet other files. Its response depends on the sheets of
its playground alone, and it changes no sheet of another.
-/
namespace AgentWorkbench

instance : StableReads HeldStore where
  apply_getSheet _ _ _ := rfl

/-- What a request makes of what a store holds, by the files that it writes. -/
inductive Served (h : Holdings) (fresh : SheetId) : Option WrittenFiles → Holdings → Prop where
  | nothing : Served h fresh none h
  | created (playground : PlaygroundId) {title : String}
      (titled : Text.isBlankText title = false) (files : List SourceFile) :
      Served h fresh (some { sheet := fresh, files, created := true })
        { h with sheets := h.sheets ++ [{ id := fresh, playground, title, files }] }
  | replaced {k : KeptSheet} (mem : k ∈ h.sheets) {files : List SourceFile}
      (named : files.any (Text.isBlankText ·.filename) = false) :
      Served h fresh (some { sheet := k.id, files, created := false })
        (h.modify k.id fun k => { k with files })

namespace Served

variable {h h' : Holdings} {fresh : SheetId} {written : Option WrittenFiles}

/-- Sheets stay where they are. -/
theorem owners_subset (served : Served h fresh written h') :
    h.sheets.map KeptSheet.owner ⊆ h'.sheets.map KeptSheet.owner := by
  cases served with
  | nothing => exact List.Subset.refl _
  | created playground titled files =>
      rw [List.map_append]
      exact List.subset_append_left _ _
  | @replaced k mem files named =>
      have same : (h.modify k.id fun k => { k with files }).sheets.map KeptSheet.owner =
          h.sheets.map KeptSheet.owner := by
        refine Holdings.owners_modify ?_ _
        exact fun _ => rfl
      rw [same]
      exact List.Subset.refl _

/-- A sheet was there before or is written for the first time. -/
theorem has_or_created (served : Served h fresh written h') {k : KeptSheet}
    (mem : k ∈ h'.sheets) :
    h.has k.id = true ∨ ∃ write ∈ written, write.created = true ∧ write.sheet = k.id := by
  cases served with
  | nothing => exact .inl (Holdings.has_iff.mpr ⟨k, mem, rfl⟩)
  | created playground titled files =>
      obtain mem | mem := List.mem_append.mp mem
      · exact .inl (Holdings.has_iff.mpr ⟨k, mem, rfl⟩)
      · obtain rfl := List.mem_singleton.mp mem
        exact .inr ⟨_, rfl, rfl, rfl⟩
  | replaced there named =>
      obtain ⟨before, held, rfl⟩ := List.mem_map.mp mem
      refine .inl (Holdings.has_iff.mpr ⟨before, held, ?_⟩)
      split <;> rfl

theorem sound (served : Served h fresh written h') (sound : h.Sound)
    (unused : ∀ write ∈ written, write.created = true → h.has write.sheet = false) : h'.Sound := by
  cases served with
  | nothing => exact sound
  | created playground titled files => exact sound.append (unused _ rfl rfl)
  | replaced mem named =>
      refine sound.modify ?_ _
      exact fun _ => rfl

end Served

namespace SheetRequest

/-- What was written, by the answer. -/
def written? (fresh : SheetId) (request : SheetRequest) :
    Except ApiError Json → Option WrittenFiles
  | .ok _ => request.writes? fresh
  | .error _ => none

section

variable {σ : Type} [SheetStore σ]

theorem reply_eq {α : Type} (op : StoreOp α) (toJson : α → Json) (store : σ) :
    reply op toJson store =
      (((SheetStore.apply op store).1.map toJson).mapError .ofStorage,
        (SheetStore.apply op store).2) := by
  rw [reply]
  split <;> next applied => rw [applied]; rfl

/-- The runs of a sheet are read once the sheet is found in its playground. -/
theorem ask_listRuns [StableReads σ] (fresh : SheetId) (playground : PlaygroundId) (id : SheetId)
    (store : σ) :
    ask fresh (.listRuns playground id) store =
      match (SheetStore.apply (.getSheet id playground) store).1 with
      | .error e => (.error (.ofStorage e), store)
      | .ok _ =>
        reply (.listRuns id) (fun runs => .obj [("runs", .arr (runs.map StoredRun.toJson))])
          store := by
  have same := StableReads.apply_getSheet id playground store
  rw [ask]
  split <;> next applied => rw [applied] at same ⊢; cases same; rfl

theorem answer_of_problem {request : SheetRequest} {e : ApiError}
    (problem : request.problem? = some e) (fresh : SheetId) (store : σ) :
    request.answer fresh store = (.error e, store) := by
  rw [answer, problem]

theorem answer_of_no_problem {request : SheetRequest} (proper : request.problem? = none)
    (fresh : SheetId) (store : σ) : request.answer fresh store = request.ask fresh store := by
  rw [answer, proper]

end

variable {fresh : SheetId} {request : SheetRequest}

section AnyStore

variable {s : AnyStore}

theorem reply_error {α : Type} {op : StoreOp α} {toJson : α → Json} {e : ApiError}
    (failed : (reply op toJson s).1 = .error e) : (reply op toJson s).2 = s := by
  rw [reply_eq] at failed ⊢
  cases result : (SheetStore.apply op s).1 with
  | ok a => rw [result] at failed; cases failed
  | error e => exact AnyStore.apply_error result

theorem answer_keeping (fresh : SheetId) (request : SheetRequest) (s : AnyStore) :
    (request.answer fresh s).2.keeping = s.keeping := by
  cases problem : request.problem? with
  | some e => rw [answer_of_problem problem]
  | none =>
      rw [answer_of_no_problem problem]
      cases request with
      | list _ | create _ _ _ | get _ _ | replaceFiles _ _ _ =>
          rw [ask, reply_eq]
          exact AnyStore.keeping_apply _ s
      | listRuns playground id =>
          rw [ask_listRuns]
          split
          · rfl
          · rw [reply_eq]
            exact AnyStore.keeping_apply _ s

/-- A request that is not granted leaves the store as it was. -/
theorem answer_error {e : ApiError} (failed : (request.answer fresh s).1 = .error e) :
    (request.answer fresh s).2 = s := by
  cases problem : request.problem? with
  | some e => rw [answer_of_problem problem]
  | none =>
      rw [answer_of_no_problem problem] at failed ⊢
      cases request with
      | list _ | create _ _ _ | get _ _ | replaceFiles _ _ _ => exact reply_error failed
      | listRuns playground id =>
          rw [ask_listRuns] at failed ⊢
          split
          · rfl
          · next found =>
              rw [found] at failed
              exact reply_error failed

theorem reply_held (sound : s.holdings.Sound) {α : Type} {op : StoreOp α}
    (fresh : ∀ id ∈ op.createdId?, s.holdings.has id = false) (toJson : α → Json) :
    ((reply op toJson s).1, (reply op toJson s).2.held) = reply op toJson s.held := by
  rw [reply_eq, reply_eq, ← AnyStore.apply_held sound fresh]

/-- A store gives the answer that the store gives which is no more than what it holds. -/
theorem answer_held (sound : s.holdings.Sound)
    (unused : request.creates = true → s.holdings.has fresh = false) :
    ((request.answer fresh s).1, (request.answer fresh s).2.held) =
      request.answer fresh s.held := by
  cases problem : request.problem? with
  | some e => rw [answer_of_problem problem, answer_of_problem problem]
  | none =>
      rw [answer_of_no_problem problem, answer_of_no_problem problem]
      cases request with
      | list _ | get _ _ | replaceFiles _ _ _ =>
          exact reply_held sound (by simp [StoreOp.createdId?]) _
      | create playground title files =>
          exact reply_held sound (by simpa [StoreOp.createdId?] using unused rfl) _
      | listRuns playground id =>
          have found : (SheetStore.apply (.getSheet id playground) s).1 =
              (SheetStore.apply (.getSheet id playground) s.held).1 :=
            congrArg Prod.fst (AnyStore.apply_held sound (by simp [StoreOp.createdId?]))
          rw [ask_listRuns, ask_listRuns, ← found]
          split
          · rfl
          · exact reply_held sound (by simp [StoreOp.createdId?]) _

end AnyStore

section Held

variable {held held' : HeldStore}

theorem apply_agrees {playground : PlaygroundId}
    (agree : held.holdings.AgreeIn playground held'.holdings) {α : Type} {op : StoreOp α}
    (names : held.holdings.Names playground op) (next : op.reading? = none) :
    (SheetStore.apply op held).1 = (SheetStore.apply op held').1 :=
  agree.answer_eq names (by simp [next])

theorem reply_agrees {playground : PlaygroundId}
    (agree : held.holdings.AgreeIn playground held'.holdings) {α : Type} {op : StoreOp α}
    (names : held.holdings.Names playground op) (next : op.reading? = none) (toJson : α → Json) :
    (reply op toJson held).1 = (reply op toJson held').1 := by
  rw [reply_eq, reply_eq, apply_agrees agree names next]

theorem reply_apart (sound : held.holdings.Sound) {playground : PlaygroundId} {α : Type}
    {op : StoreOp α} (names : held.holdings.Names playground op) (toJson : α → Json) :
    held.holdings.AgreeOutside playground (reply op toJson held).2.holdings := by
  rw [reply_eq]
  exact Holdings.agreeOutside_apply sound names

/-- The answer depends on what is held in the playground of the request. -/
theorem answer_agrees (fresh : SheetId)
    (agree : held.holdings.AgreeIn request.playground held'.holdings) :
    (request.answer fresh held).1 = (request.answer fresh held').1 := by
  cases problem : request.problem? with
  | some e => rw [answer_of_problem problem, answer_of_problem problem]
  | none =>
      rw [answer_of_no_problem problem, answer_of_no_problem problem]
      cases request with
      | list _ | create _ _ _ | get _ _ | replaceFiles _ _ _ =>
          refine reply_agrees agree ?_ rfl _
          rfl
      | listRuns playground id =>
          have found : (SheetStore.apply (.getSheet id playground) held).1 =
              (SheetStore.apply (.getSheet id playground) held').1 := by
            refine apply_agrees agree ?_ rfl
            rfl
          rw [ask_listRuns, ask_listRuns, ← found]
          split
          · rfl
          · next sheet got =>
              refine reply_agrees agree ?_ rfl _
              exact Holdings.owns_of_getSheet got

/-- What is held in other playgrounds stays. -/
theorem answer_apart (sound : held.holdings.Sound) (fresh : SheetId) (request : SheetRequest) :
    held.holdings.AgreeOutside request.playground (request.answer fresh held).2.holdings := by
  cases problem : request.problem? with
  | some e =>
      rw [answer_of_problem problem]
      exact .refl _ _
  | none =>
      rw [answer_of_no_problem problem]
      cases request with
      | list _ | create _ _ _ | get _ _ | replaceFiles _ _ _ =>
          refine reply_apart sound ?_ _
          rfl
      | listRuns playground id =>
          rw [ask_listRuns]
          split
          · exact .refl _ _
          · next sheet got =>
              refine reply_apart sound ?_ _
              exact Holdings.owns_of_getSheet got

theorem ask_listRuns_held (fresh : SheetId) (playground : PlaygroundId) (id : SheetId)
    (held : HeldStore) : (ask fresh (.listRuns playground id) held).2 = held := by
  rw [ask_listRuns]
  split
  · rfl
  · rw [reply_eq]
    rfl

theorem written?_of_read (reads : request.writes? fresh = none) (answer : Except ApiError Json) :
    request.written? fresh answer = none := by
  cases answer with
  | ok value => exact reads
  | error e => rfl

/-- Stores that hold the same in the playground of the request do so afterwards. -/
theorem agreeIn_answer (sound : held.holdings.Sound) (sound' : held'.holdings.Sound)
    (unused : request.creates = true → held.holdings.has fresh = false)
    (unused' : request.creates = true → held'.holdings.has fresh = false)
    (agree : held.holdings.AgreeIn request.playground held'.holdings) :
    (request.answer fresh held).2.holdings.AgreeIn request.playground
      (request.answer fresh held').2.holdings := by
  cases problem : request.problem? with
  | some e =>
      rw [answer_of_problem problem, answer_of_problem problem]
      exact agree
  | none =>
      rw [answer_of_no_problem problem, answer_of_no_problem problem]
      cases request with
      | list _ | get _ _ =>
          rw [ask, ask, reply_eq, reply_eq]
          exact agree
      | create playground title files =>
          rw [ask, ask, reply_eq, reply_eq]
          exact agree.append
            ((sound.owned fresh (unused rfl)).trans (sound'.owned fresh (unused' rfl)).symm)
      | replaceFiles playground id files =>
          rw [ask, ask, reply_eq, reply_eq]
          change Holdings.AgreeIn playground
            (held.holdings.apply held.keeping (.replaceFiles id playground files)).2
            (held'.holdings.apply held'.keeping (.replaceFiles id playground files)).2
          have found : held.holdings.sheet? id playground = held'.holdings.sheet? id playground :=
            agree.sheet?_eq id
          rw [Holdings.apply, Holdings.apply, found]
          split
          · refine agree.modify ?_ id
            exact fun _ => rfl
          · exact agree
      | listRuns playground id =>
          rw [ask_listRuns_held, ask_listRuns_held]
          exact agree

/-- A request that is granted adds a sheet with a title, or gives a sheet files with names; any
other writes nothing. -/
theorem answer_served (fresh : SheetId) (request : SheetRequest) (held : HeldStore) :
    Served held.holdings fresh (request.written? fresh (request.answer fresh held).1)
      (request.answer fresh held).2.holdings := by
  cases problem : request.problem? with
  | some e =>
      rw [answer_of_problem problem]
      exact .nothing
  | none =>
      rw [answer_of_no_problem problem]
      cases request with
      | list _ | get _ _ =>
          rw [ask, reply_eq, written?_of_read rfl]
          exact .nothing
      | listRuns playground id =>
          rw [ask_listRuns_held, written?_of_read rfl]
          exact .nothing
      | create playground title files =>
          rw [ask, reply_eq]
          refine .created playground ?_ files
          simpa [problem?] using problem
      | replaceFiles playground id files =>
          have named : files.any (Text.isBlankText ·.filename) = false := by
            simpa [problem?] using problem
          rw [ask, reply_eq]
          cases found : held.holdings.sheet? id playground with
          | none =>
              have absent : SheetStore.apply (.replaceFiles id playground files) held =
                  (.error (.sheetNotFound id), held) := by
                simp only [SheetStore.apply, Holdings.apply, found]
                rfl
              rw [absent]
              exact .nothing
          | some k =>
              obtain ⟨mem, rfl, rfl⟩ := Holdings.mem_of_sheet? found
              have replaced : SheetStore.apply (.replaceFiles k.id k.playground files) held =
                  (.ok (), { held with
                    holdings := held.holdings.modify k.id fun k => { k with files } }) := by
                simp only [SheetStore.apply, Holdings.apply, found]
                rfl
              rw [replaced]
              exact .replaced mem named

end Held

end SheetRequest

namespace HttpRequest

/-- What a request wrote, by its response. -/
def written? (fresh : SheetId) (r : HttpRequest) (response : Option HttpResponse) :
    Option WrittenFiles :=
  if response.any (·.status = 200) then r.asked?.bind (·.writes? fresh) else none

/-- The id that the request gives to a sheet if it is accepted. -/
def createdId? (fresh : SheetId) (r : HttpRequest) : Option SheetId :=
  if r.asked?.any SheetRequest.creates then some fresh else none

variable {fresh : SheetId} {r : HttpRequest} {s s' : AnyStore}

theorem unused_of_asked {h : Holdings} (unused : ∀ id ∈ r.createdId? fresh, h.has id = false)
    {request : SheetRequest} (asked : r.asked? = some request) (creates : request.creates = true) :
    h.has fresh = false :=
  unused fresh (by simp [createdId?, asked, creates])

/-- A request without success leaves the store as it was. -/
theorem respond_unaccepted (rejected : (r.respond fresh s).1.all (·.status ≠ 200) = true) :
    (r.respond fresh s).2 = s := by
  cases asked : r.asked? with
  | none =>
      obtain ⟨response, alone⟩ := respond_of_unasked asked
      rw [alone]
  | some request =>
      obtain ⟨finish, status, responds⟩ := respond_of_asked asked
      rw [responds] at rejected ⊢
      cases answered : (request.answer fresh s).1 with
      | error e => exact SheetRequest.answer_error answered
      | ok value =>
          rw [answered] at rejected
          simp [status, ofAnswer, HttpResponse.json] at rejected

theorem respond_keeping (fresh : SheetId) (r : HttpRequest) (s : AnyStore) :
    (r.respond fresh s).2.keeping = s.keeping := by
  cases asked : r.asked? with
  | none =>
      obtain ⟨response, alone⟩ := respond_of_unasked asked
      rw [alone]
  | some request =>
      obtain ⟨finish, -, responds⟩ := respond_of_asked asked
      rw [responds]
      exact request.answer_keeping fresh s

/-- A sheet that was created is one that the request gave its id. -/
theorem createdId?_of_written? {response : Option HttpResponse} {write : WrittenFiles}
    (written : r.written? fresh response = some write) (created : write.created = true) :
    r.createdId? fresh = some write.sheet := by
  rw [written?] at written
  split at written
  · obtain ⟨request, asked, writes⟩ := Option.bind_eq_some_iff.mp written
    cases request with
    | create playground title files =>
        cases writes
        simp [createdId?, asked, SheetRequest.creates]
    | replaceFiles playground id files =>
        cases writes
        contradiction
    | list _ | get _ _ | listRuns _ _ => contradiction
  · contradiction

/-- What a store holds after a request follows from what it held. -/
theorem respond_served (sound : s.holdings.Sound)
    (unused : ∀ id ∈ r.createdId? fresh, s.holdings.has id = false) :
    Served s.holdings fresh (r.written? fresh (r.respond fresh s).1)
      (r.respond fresh s).2.holdings := by
  cases asked : r.asked? with
  | none =>
      obtain ⟨response, alone⟩ := respond_of_unasked asked
      rw [alone, written?, asked]
      simpa using .nothing
  | some request =>
      obtain ⟨finish, status, responds⟩ := respond_of_asked asked
      obtain ⟨answer, held⟩ := Prod.ext_iff.mp
        (SheetRequest.answer_held sound (unused_of_asked unused asked))
      have served := request.answer_served fresh s.held
      rw [← answer, ← held] at served
      rw [responds]
      have written : r.written? fresh (some (finish (ofAnswer (request.answer fresh s).1))) =
          request.written? fresh (request.answer fresh s).1 := by
        rw [written?, asked]
        cases (request.answer fresh s).1 with
        | ok value => simp [status, ofAnswer, HttpResponse.json, SheetRequest.written?]
        | error e => simp [status, status_ofAnswer_error, SheetRequest.written?]
      rw [written]
      exact served

/-- A request is answered by what is held in its playground, and changes nothing of another. -/
theorem respond_isolated (sound : s.holdings.Sound) (sound' : s'.holdings.Sound)
    (unused : ∀ id ∈ r.createdId? fresh, s.holdings.has id = false)
    (unused' : ∀ id ∈ r.createdId? fresh, s'.holdings.has id = false)
    {playground : PlaygroundId} (named : r.playground? = some playground)
    (agree : s.holdings.AgreeIn playground s'.holdings) :
    (r.respond fresh s).1 = (r.respond fresh s').1 ∧
      (r.respond fresh s).2.holdings.AgreeIn playground (r.respond fresh s').2.holdings ∧
      s.holdings.AgreeOutside playground (r.respond fresh s).2.holdings := by
  cases asked : r.asked? with
  | none =>
      obtain ⟨response, alone⟩ := respond_of_unasked asked
      rw [alone, alone]
      exact ⟨rfl, agree, .refl _ _⟩
  | some request =>
      obtain ⟨finish, -, responds⟩ := respond_of_asked asked
      obtain rfl : request.playground = playground :=
        Option.some.inj ((playground?_of_asked asked).symm.trans named)
      have unused := unused_of_asked unused asked
      have unused' := unused_of_asked unused' asked
      obtain ⟨answer, held⟩ := Prod.ext_iff.mp (SheetRequest.answer_held sound unused)
      obtain ⟨answer', held'⟩ := Prod.ext_iff.mp (SheetRequest.answer_held sound' unused')
      have same : (request.answer fresh s.held).1 = (request.answer fresh s'.held).1 :=
        SheetRequest.answer_agrees fresh agree
      have agree_after : Holdings.AgreeIn request.playground
          (request.answer fresh s.held).2.holdings (request.answer fresh s'.held).2.holdings :=
        SheetRequest.agreeIn_answer sound sound' unused unused' agree
      have apart : Holdings.AgreeOutside request.playground s.held.holdings
          (request.answer fresh s.held).2.holdings :=
        SheetRequest.answer_apart sound fresh request
      rw [← answer, ← answer'] at same
      rw [← held, ← held'] at agree_after
      rw [← held] at apart
      rw [responds, responds]
      exact ⟨by rw [same], agree_after, apart⟩

end HttpRequest

end AgentWorkbench
