import AgentWorkbench.Proofs.Store.Reached

/-!
Writes to a store are whole and touch only what they name. An operation that fails leaves the store
as it was. One that succeeds changes one thing: it adds a sheet behind the others, or changes the
files or the graph of one sheet, or adds one run to a sheet under the next id.
-/
namespace AgentWorkbench

/-- What a store answers is what it holds, and a run that is added gets the next id. -/
structure Shows {σ : Type} [SheetStore σ] (store : σ) (h : Holdings) : Prop where
  getSheet : ∀ id playground,
    (SheetStore.apply (.getSheet id playground) store).1 = h.getSheet id playground
  listSheets : ∀ playground,
    (SheetStore.apply (.listSheets playground) store).1 = .ok (h.listing playground)
  listRuns : ∀ id, (SheetStore.apply (.listRuns id) store).1 = h.listRuns id
  insertRun : ∀ now run, (SheetStore.apply (.insertRun now run) store).1 =
    if h.has run.sheet then .ok (h.lastRun + 1) else .error (.sheetNotFound run.sheet)

/-- All that an operation changes if it succeeds with a result. -/
inductive Touches (keeping : Keeping) (h : Holdings) :
    {α : Type} → StoreOp α → α → Holdings → Prop where
  | created (id : SheetId) (playground : PlaygroundId) (title : String)
      (files : List SourceFile) :
      Touches keeping h (.createSheet id playground title files) id
        { h with sheets := h.sheets ++ [{ id, playground, title, files }] }
  | gotSheet (id : SheetId) (playground : PlaygroundId) (sheet : Sheet) :
      Touches keeping h (.getSheet id playground) sheet h
  | listedSheets (playground : PlaygroundId) (sheets : List SheetSummary) :
      Touches keeping h (.listSheets playground) sheets h
  | replacedFiles {before after : List KeptSheet} {k : KeptSheet}
      (sheets : h.sheets = before ++ k :: after) (files : List SourceFile) :
      Touches keeping h (.replaceFiles k.id k.playground files) ()
        { h with sheets := before ++ { k with files } :: after }
  | savedGraph {before after : List KeptSheet} {k : KeptSheet}
      (sheets : h.sheets = before ++ k :: after) (graph : PipelineGraph) :
      Touches keeping h (.saveGraph k.id graph) ()
        { h with sheets := before ++ { k with graph := keeping.graph graph } :: after }
  | insertedRun (now : Int) {run : RunRecord} {newer older : List KeptRun}
      (runs : h.runs run.sheet = newer ++ older)
      (larger : ∀ id, ∀ earlier ∈ h.runs id, earlier.id < h.lastRun + 1) :
      Touches keeping h (.insertRun now run) (h.lastRun + 1)
        { h with
          lastRun := h.lastRun + 1
          runs := Function.update h.runs run.sheet
            (newer ++ keeping.newRun (h.lastRun + 1) now run :: older) }
  | listedRuns (id : SheetId) (runs : List StoredRun) :
      Touches keeping h (.listRuns id) runs h

/-- The sheets that operations created in a playground are listed, each once and in that order, and
with as many files as are read of them. -/
structure Listed {σ : Type} [SheetStore σ] (store : σ) (past : List StoreRequest)
    (playground : PlaygroundId) (listing : List SheetSummary) : Prop where
  listed : (SheetStore.apply (.listSheets playground) store).1 = .ok listing
  created : listing.map (·.id) =
    ((past.filterMap (·.2.created?)).filter (·.2 = playground)).map Prod.fst
  once : (listing.map (·.id)).Nodup
  read : ∀ summary ∈ listing,
    (SheetStore.apply (.getSheet summary.id playground) store).1 = .error .serialization ∨
      ∃ sheet, (SheetStore.apply (.getSheet summary.id playground) store).1 = .ok sheet ∧
        summary = { id := sheet.id, title := sheet.title, fileCount := sheet.files.length }

namespace Holdings

variable {h : Holdings} {keeping : Keeping}

/-- The sheets, cut at the only one that has an id. -/
theorem Sound.exists_cut (sound : h.Sound) {k : KeptSheet} (mem : k ∈ h.sheets) :
    ∃ before after, h.sheets = before ++ k :: after ∧
      ∀ other ∈ before ++ after, other.id ≠ k.id := by
  obtain ⟨before, after, cut⟩ := List.append_of_mem mem
  refine ⟨before, after, cut, fun other there same => ?_⟩
  have distinct := sound.distinct
  rw [cut, (List.perm_middle.map _).nodup_iff, List.map_cons, List.nodup_cons] at distinct
  exact distinct.1 (List.mem_map.mpr ⟨other, there, same⟩)

theorem modify_cut {before after : List KeptSheet} {k : KeptSheet}
    (sheets : h.sheets = before ++ k :: after) (others : ∀ other ∈ before ++ after, other.id ≠ k.id)
    (f : KeptSheet → KeptSheet) :
    h.modify k.id f = { h with sheets := before ++ f k :: after } := by
  have same {part : List KeptSheet} (sub : part ⊆ before ++ after) :
      (part.map fun other => if other.id = k.id then f other else other) = part := by
    conv_rhs => rw [← List.map_id part]
    exact List.map_congr_left fun other mem => if_neg (others other (sub mem))
  rw [modify, sheets, List.map_append, List.map_cons, if_pos rfl,
    same (List.subset_append_left _ _), same (List.subset_append_right _ _)]

theorem mem_of_sheet? {id : SheetId} {playground : PlaygroundId} {k : KeptSheet}
    (found : h.sheet? id playground = some k) :
    k ∈ h.sheets ∧ k.id = id ∧ k.playground = playground :=
  ⟨List.mem_of_find?_eq_some found, by simpa using List.find?_some found⟩

/-- A sheet is found under its id in its playground. -/
theorem Sound.sheet?_eq (sound : h.Sound) {k : KeptSheet} (mem : k ∈ h.sheets) :
    h.sheet? k.id k.playground = some k := by
  obtain ⟨before, after, cut, others⟩ := sound.exists_cut mem
  rw [sheet?, cut, List.find?_append, List.find?_eq_none.mpr, Option.none_or,
    List.find?_cons_of_pos]
  · simp
  · intro other there
    simp [others other (List.mem_append_left _ there)]

/-- A successful operation changes only what it names. -/
theorem Sound.touches (sound : h.Sound) (places : keeping.Places) {α : Type} {op : StoreOp α}
    {a : α} (done : (h.apply keeping op).1 = .ok a) :
    Touches keeping h op a (h.apply keeping op).2 := by
  cases op with
  | createSheet id playground title files =>
      cases done
      exact .created id playground title files
  | getSheet id playground => exact .gotSheet id playground a
  | listSheets playground => exact .listedSheets playground a
  | listRuns id => exact .listedRuns id a
  | replaceFiles id playground files =>
      rw [Holdings.apply] at done ⊢
      cases found : h.sheet? id playground with
      | none => simp [found] at done
      | some k =>
          obtain ⟨mem, rfl, rfl⟩ := mem_of_sheet? found
          obtain ⟨before, after, cut, others⟩ := sound.exists_cut mem
          rw [Option.isSome_some, if_pos rfl, modify_cut cut others]
          exact .replacedFiles cut files
  | saveGraph id graph =>
      rw [Holdings.apply] at done ⊢
      split
      · next held =>
          obtain ⟨k, mem, rfl⟩ := has_iff.mp held
          obtain ⟨before, after, cut, others⟩ := sound.exists_cut mem
          rw [modify_cut cut others]
          exact .savedGraph cut graph
      · next absent => rw [if_neg absent] at done; cases done
  | insertRun now run =>
      rw [Holdings.apply] at done ⊢
      split
      · next held =>
          rw [if_pos held] at done
          cases done
          obtain ⟨newer, older, cut, runs⟩ := addRun_runs places h now run
          have added : h.addRun keeping now run =
              { h with
                lastRun := h.lastRun + 1
                runs := (h.addRun keeping now run).runs } := rfl
          rw [added, runs]
          exact .insertedRun now cut fun id earlier mem =>
            Nat.lt_succ_of_le (sound.numbered id earlier mem)
      · next absent => rw [if_neg absent] at done; cases done

end Holdings

theorem InMemoryStore.apply_error {m : InMemoryStore} {α : Type} {op : StoreOp α}
    {e : StorageError} (failed : (m.apply op).1 = .error e) : (m.apply op).2 = m := by
  cases op with
  | createSheet _ _ _ _ => cases failed
  | listSheets _ => rfl
  | getSheet _ _ | listRuns _ =>
      rw [apply]
      split <;> rfl
  | replaceFiles _ _ _ | saveGraph _ _ | insertRun _ _ =>
      rw [apply] at failed ⊢
      split
      · next held => rw [if_pos held] at failed; cases failed
      · rfl

/-- A transaction that fails is undone. -/
theorem Database.transaction_error {db : Database} {α : Type} {statements : Statements α}
    {e : StorageError} (failed : (db.transaction statements).1 = .error e) :
    (db.transaction statements).2 = db := by
  rw [transaction] at failed ⊢
  cases run : statements db with
  | ok done => rw [run] at failed; cases failed
  | error e => rfl

theorem Database.apply_error {db : Database} {α : Type} {op : StoreOp α} {e : StorageError}
    (failed : (db.apply op).1 = .error e) : (db.apply op).2 = db := by
  cases op with
  | createSheet _ _ _ _ | replaceFiles _ _ _ | saveGraph _ _ | insertRun _ _ =>
      exact transaction_error failed
  | getSheet _ _ | listSheets _ | listRuns _ => rfl

namespace AnyStore

theorem shows_holdings {s : AnyStore} (sound : s.holdings.Sound) : Shows s s.holdings := by
  refine ⟨fun _ _ => answer_eq_holdings sound rfl, fun _ => answer_eq_holdings sound rfl,
    fun _ => answer_eq_holdings sound rfl, fun now run => ?_⟩
  rw [answer_eq_holdings sound rfl, Holdings.apply]
  split <;> rfl

/-- An operation that fails leaves the store as it was. -/
theorem apply_error {s : AnyStore} {α : Type} {op : StoreOp α} {e : StorageError}
    (failed : (SheetStore.apply op s).1 = .error e) : (SheetStore.apply op s).2 = s := by
  cases s with
  | inMemory store => exact congrArg inMemory (InMemoryStore.apply_error failed)
  | relational db => exact congrArg relational (Database.apply_error failed)

theorem graph_error {s : AnyStore} {k : KeptSheet} (mem : k ∈ s.holdings.sheets) {e : StorageError}
    (unread : k.graph = .error e) : e = .serialization := by
  cases s with
  | inMemory store =>
      obtain ⟨sheet, -, rfl⟩ := List.mem_map.mp mem
      cases unread
  | relational db =>
      obtain ⟨row, -, rfl⟩ := List.mem_map.mp mem
      cases graph : row.graph with
      | none => simp [Database.kept, graph, Database.readColumn] at unread
      | some text =>
          rw [Database.kept, graph, Database.readColumn] at unread
          split at unread <;> cases unread
          rfl

theorem listed_holdings {s : AnyStore} {past : List StoreRequest} (held : s.holdings.After past)
    (playground : PlaygroundId) :
    Listed s past playground (s.holdings.listing playground) := by
  have shown := shows_holdings held.sound
  have ids : (s.holdings.listing playground).map (·.id) =
      ((past.filterMap (·.2.created?)).filter (·.2 = playground)).map Prod.fst := by
    rw [Holdings.listing, ← held.owners, List.filter_map, List.map_map, List.map_map]
    rfl
  refine ⟨shown.listSheets playground, ids, ?_, ?_⟩
  · rw [Holdings.listing, List.map_map]
    exact held.sound.distinct.sublist (List.filter_sublist.map _)
  · intro summary mem
    obtain ⟨k, chosen, rfl⟩ := List.mem_map.mp mem
    obtain ⟨there, rfl⟩ : k ∈ s.holdings.sheets ∧ k.playground = playground := by
      simpa using chosen
    rw [shown.getSheet]
    have found : s.holdings.getSheet k.summary.id k.playground = k.read := by
      rw [Holdings.getSheet, KeptSheet.summary, held.sound.sheet?_eq there]
    rw [found, KeptSheet.read]
    cases graph : k.graph with
    | error e => exact .inl (graph_error there graph ▸ rfl)
    | ok graph => exact .inr ⟨_, rfl, rfl⟩

end AnyStore

/-- In every store that operations made of an empty one, an operation that fails changes nothing,
and one that succeeds changes only what it names. -/
theorem writes_touch_only_what_they_name (backend : Backend) (past : List StoreRequest) {α : Type}
    (op : StoreOp α) (fresh : FreshIds (past ++ [⟨α, op⟩])) :
    let store := backend.storeAfter past
    let later := (SheetStore.apply op store).2
    (Shows store store.holdings ∧ Shows later later.holdings) ∧
      (∀ e, (SheetStore.apply op store).1 = .error e → later = store) ∧
      (∀ a, (SheetStore.apply op store).1 = .ok a →
        Touches backend.keeping store.holdings op a later.holdings) ∧
      ∀ playground, ∃ listing, Listed later (past ++ [⟨α, op⟩]) playground listing := by
  intro store later
  have held : later.holdings.After (past ++ [⟨α, op⟩]) := by
    have same : later = backend.storeAfter (past ++ [⟨α, op⟩]) :=
      (backend.storeAfter_append past op).symm
    exact same ▸ backend.holdings_storeAfter fresh
  obtain ⟨fresh_before, unused⟩ := fresh_last fresh
  have held_before : store.holdings.After past := backend.holdings_storeAfter fresh_before
  have unused (id : SheetId) (created : id ∈ op.createdId?) : store.holdings.has id = false :=
    held_before.has_eq_false (unused id created)
  have step := AnyStore.apply_holdings held_before.sound unused
  refine ⟨⟨AnyStore.shows_holdings held_before.sound, AnyStore.shows_holdings held.sound⟩,
    fun e => AnyStore.apply_error, fun a done => ?_,
    fun playground => ⟨_, AnyStore.listed_holdings held playground⟩⟩
  rw [congrArg Prod.fst step] at done
  have touched := held_before.sound.touches store.keeping_places done
  rwa [← congrArg Prod.snd step, backend.keeping_storeAfter] at touched

/-- Two sheets in a playground and one in another, with a run each. -/
def threeSheets : List StoreRequest :=
  [⟨_, .createSheet ⟨"a"⟩ ⟨"p"⟩ "first" [{ filename := "main.py", code := "a = 1\n" }]⟩,
    ⟨_, .createSheet ⟨"b"⟩ ⟨"q"⟩ "other" []⟩, ⟨_, .createSheet ⟨"c"⟩ ⟨"p"⟩ "second" []⟩,
    ⟨_, .insertRun 951782399 { sheet := ⟨"a"⟩, output := "1" }⟩,
    ⟨_, .insertRun 951782399 { sheet := ⟨"b"⟩, output := "2" }⟩]

theorem threeSheets_run_added :
    let run : RunRecord := { sheet := ⟨"a"⟩, output := "3" }
    let store := Backend.database.storeAfter threeSheets
    let later := (SheetStore.apply (.insertRun 0 run) store).2
    FreshIds (threeSheets ++ [⟨Nat, .insertRun 0 run⟩]) ∧
      Touches .relational store.holdings (.insertRun 0 run) 3 later.holdings ∧
      ∃ listing, listing.map (·.id) = [⟨"a"⟩, ⟨"c"⟩] ∧
        Listed later (threeSheets ++ [⟨Nat, .insertRun 0 run⟩]) ⟨"p"⟩ listing := by
  intro run store later
  have fresh : FreshIds (threeSheets ++ [⟨Nat, .insertRun 0 run⟩]) := by decide
  obtain ⟨-, -, touched, listed⟩ :=
    writes_touch_only_what_they_name .database threeSheets (.insertRun 0 run) fresh
  obtain ⟨listing, listed⟩ := listed ⟨"p"⟩
  refine ⟨fresh, touched 3 rfl, listing, ?_, listed⟩
  rw [listed.created]
  decide

end AgentWorkbench
