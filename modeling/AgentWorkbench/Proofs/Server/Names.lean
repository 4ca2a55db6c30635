import AgentWorkbench.Proofs.Server.Ledger

/-!
Titles and names in the sheets that requests make. Every sheet has a title, and files that take the
place of others have names. The files with which a sheet is created are not looked at: a sheet has a
file without a name as long as it has the files of its creation, if one of them has none.
-/
namespace AgentWorkbench

/-- A file has no name. -/
def anyNameless (files : List SourceFile) : Bool := files.any (Text.isBlankText ·.filename)

/-- What requests make of an empty store: every sheet has a title, and files without names only from
its creation. A request that is not accepted leaves the store as it was. -/
theorem nameless_file_iff_created (backend : Backend) (config : Config) (events : List LiveEvent)
    (fresh : (events.filterMap LiveEvent.createdId?).Nodup) :
    let server := LiveServer.run config { store := backend.emptyStore } events
    Shows server.store server.store.holdings ∧
      (∀ k ∈ server.store.holdings.sheets, Text.isBlankText k.title = false ∧
        ∃ write, server.written.find? (·.sheet = k.id) = some write ∧ write.files = k.files ∧
          (anyNameless k.files = true ↔
            write.created = true ∧ anyNameless write.files = true)) ∧
      ∀ (id : SheetId) (r : HttpRequest),
        (r.respond id server.store).1.all (·.status ≠ 200) = true →
          (r.respond id server.store).2 = server.store := by
  intro server
  obtain ⟨orderly, booked⟩ := LiveServer.booked_run backend config fresh
  refine ⟨AnyStore.shows_holdings orderly.sound, fun k mem => ?_,
    fun id r => HttpRequest.respond_unaccepted⟩
  obtain ⟨write, last, same⟩ := booked.files.last k mem
  refine ⟨booked.files.titled k mem, write, last, same, ?_⟩
  rw [same, iff_and_self]
  intro nameless
  cases created : write.created with
  | true => rfl
  | false =>
      have named : anyNameless write.files = false :=
        booked.files.named write (List.mem_of_find?_eq_some last) created
      rw [same, nameless] at named
      contradiction

/-- A sheet is created with a file that has no name. -/
def namelessCreation : LiveEvent :=
  .request ⟨"a"⟩ {
    method := "POST"
    target := "/playgrounds/p/sheets"
    headers := [("content-type", "application/json")]
    body := "\x7b\"title\":\"t\",\"files\":[\x7b\"filename\":\"\",\"code\":\"a = 1\"\x7d]\x7d" }

/-- Files without a name do not take the place of others. -/
def namelessReplacement : LiveEvent :=
  .request ⟨"b"⟩ {
    method := "PUT"
    target := "/playgrounds/p/sheets/a/files"
    headers := [("content-type", "application/json")]
    body := "\x7b\"files\":[\x7b\"filename\":\" \",\"code\":\"\"\x7d]\x7d" }

theorem nameless_file_after_creation :
    let server := LiveServer.run {} { store := Backend.inMemory.emptyStore } [namelessCreation]
    ∃ k ∈ server.store.holdings.sheets,
      ∃ file ∈ k.files, Text.isBlankText file.filename = true := by
  decide +kernel

theorem nameless_file_iff_created_refused :
    let events := [namelessCreation, namelessReplacement]
    let server := LiveServer.run {} { store := Backend.database.emptyStore } events
    (events.filterMap LiveEvent.createdId?).Nodup ∧
      ∃ k ∈ server.store.holdings.sheets, anyNameless k.files = true ∧
        ∃ write, server.written.find? (·.sheet = k.id) = some write ∧ write.created = true := by
  intro events server
  have fresh : (events.filterMap LiveEvent.createdId?).Nodup := by decide +kernel
  have created : ∃ k ∈ server.store.holdings.sheets, anyNameless k.files = true := by
    decide +kernel
  obtain ⟨k, mem, nameless⟩ := created
  obtain ⟨-, sheets, -⟩ := nameless_file_iff_created .database {} events fresh
  obtain ⟨-, write, last, -, from_creation⟩ := sheets k mem
  exact ⟨fresh, k, mem, nameless, write, last, (from_creation.mp nameless).1⟩

end AgentWorkbench
