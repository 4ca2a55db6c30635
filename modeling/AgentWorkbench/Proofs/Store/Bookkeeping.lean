import AgentWorkbench.Proofs.Store.Holdings

/-!
Both kinds of store keep what they hold by the same rules: from what a store holds follows what it
answers to an operation and what it holds afterwards.
-/
namespace AgentWorkbench

theorem mapM_read {ε α β γ : Type} {read : β → Except ε γ} {keep : α → β} {view : α → γ}
    {items : List α} (reads : ∀ item ∈ items, read (keep item) = .ok (view item)) :
    (items.map keep).mapM read = .ok (items.map view) := by
  induction items with
  | nil => rfl
  | cons item rest ih =>
      rw [List.map_cons, List.mapM_cons, reads item List.mem_cons_self,
        ih fun other mem => reads other (List.mem_cons_of_mem _ mem)]
      rfl

namespace InMemoryStore

def kept (sheet : Sheet) : KeptSheet where
  id := sheet.id
  playground := sheet.playground
  title := sheet.title
  files := sheet.files
  graph := .ok sheet.graph

def keptRun (stored : StoredRun) : KeptRun where
  id := stored.id
  record := Keeping.inMemory.record stored.run
  createdAt := stored.createdAt

def holdings (m : InMemoryStore) : Holdings where
  sheets := m.sheets.map kept
  runs sheet := (m.runs.reverse.filter (·.run.sheet = sheet)).map keptRun
  lastRun := m.lastRunId

theorem has_holdings (m : InMemoryStore) (id : SheetId) : m.holdings.has id = m.has id := by
  rw [Holdings.has, has, sheet?, List.isSome_find?, holdings, List.any_map]
  rfl

theorem sheet?_holdings {m : InMemoryStore} (distinct : (m.sheets.map (·.id)).Nodup) (id : SheetId)
    (playground : PlaygroundId) :
    m.holdings.sheet? id playground = (m.scoped? id playground).map kept := by
  rw [← find?_eq_scoped? distinct, Holdings.sheet?, holdings, List.find?_map]
  rfl

theorem listing_holdings (m : InMemoryStore) (playground : PlaygroundId) :
    m.holdings.listing playground =
      (m.sheets.filter (·.playground = playground)).map summary := by
  rw [Holdings.listing, holdings, List.filter_map, List.map_map]
  rfl

theorem holdings_modifySheet (m : InMemoryStore) (id : SheetId) {f : Sheet → Sheet}
    {g : KeptSheet → KeptSheet} (same : ∀ sheet, kept (f sheet) = g (kept sheet)) :
    (m.modifySheet id f).holdings = m.holdings.modify id g := by
  rw [Holdings.modify, holdings, modifySheet, holdings]
  simp only [List.map_map, Holdings.mk.injEq, and_true]
  refine List.map_congr_left fun sheet _ => ?_
  by_cases here : sheet.id = id
  · simp only [Function.comp_apply, here, if_pos, same]
    rw [if_pos (show (kept sheet).id = id from here)]
  · simp only [Function.comp_apply, here, if_false]
    rw [if_neg (show (kept sheet).id ≠ id from here)]

theorem holdings_insertRun (m : InMemoryStore) (now : Int) (run : RunRecord) :
    (m.insertRun now run).holdings = m.holdings.addRun .inMemory now run := by
  rw [Holdings.addRun, holdings, insertRun, holdings]
  simp only [Holdings.mk.injEq, true_and, and_true]
  funext sheet
  by_cases here : run.sheet = sheet
  · subst here
    simp [keptRun, Keeping.inMemory, Keeping.newRun]
  · simp [here, Function.update_of_ne (Ne.symm here)]

theorem listRuns_holdings (m : InMemoryStore) (id : SheetId) :
    m.holdings.listRuns id =
      if m.has id then .ok (m.runs.reverse.filter (·.run.sheet = id))
      else .error (.sheetNotFound id) := by
  have read (stored : StoredRun) (mem : stored ∈ m.runs.reverse.filter (·.run.sheet = id)) :
      KeptRun.read id (keptRun stored) = .ok stored := by
    obtain rfl : stored.run.sheet = id := by simpa using (List.mem_filter.mp mem).2
    rfl
  have all := mapM_read read
  rw [List.map_id'] at all
  rw [Holdings.listRuns, has_holdings]
  exact congrArg (if m.has id then · else _) all

theorem apply_holdings {m : InMemoryStore} (distinct : (m.sheets.map (·.id)).Nodup) {α : Type}
    (op : StoreOp α) :
    ((m.apply op).1, (m.apply op).2.holdings) = m.holdings.apply .inMemory op := by
  cases op with
  | createSheet id playground title files =>
      simp [apply, Holdings.apply, createSheet, holdings, kept]
  | getSheet id playground =>
      rw [Holdings.apply, Holdings.getSheet, sheet?_holdings distinct, apply]
      cases m.scoped? id playground <;> rfl
  | listSheets playground =>
      rw [Holdings.apply, listing_holdings]
      rfl
  | replaceFiles id playground files =>
      rw [Holdings.apply, sheet?_holdings distinct, Option.isSome_map, apply]
      split
      · exact congrArg _ (holdings_modifySheet m id fun _ => rfl)
      · rfl
  | saveGraph id graph =>
      rw [Holdings.apply, has_holdings, apply]
      split
      · exact congrArg _ (holdings_modifySheet m id fun _ => rfl)
      · rfl
  | insertRun now run =>
      rw [Holdings.apply, has_holdings, apply]
      split
      · exact congrArg _ (holdings_insertRun m now run)
      · rfl
  | listRuns id =>
      rw [Holdings.apply, listRuns_holdings, apply]
      split <;> rfl

end InMemoryStore

namespace Database

def kept (db : Database) (row : SheetRow) : KeptSheet where
  id := row.id
  playground := row.playground
  title := row.title
  files := db.filesOf row.id
  graph := readColumn PipelineGraph.parse row.graph

def keptRun (row : RunRow) : KeptRun where
  id := row.id
  record := {
    output := row.output
    timings := readColumn Json.parse row.timings
    exitCode := row.exitCode }
  createdAt := row.createdAt

def holdings (db : Database) : Holdings where
  sheets := db.sheets.map db.kept
  runs sheet := (orderBy isNewer (db.runs.filter (·.sheet = sheet))).map keptRun
  lastRun := db.runSequence

theorem has_holdings (db : Database) (id : SheetId) :
    db.holdings.has id = db.sheets.any (·.id = id) := by
  rw [Holdings.has, holdings, List.any_map]
  rfl

theorem sheet?_holdings (db : Database) (id : SheetId) (playground : PlaygroundId) :
    db.holdings.sheet? id playground =
      (db.sheets.find? fun row => row.id = id && row.playground = playground).map db.kept := by
  rw [Holdings.sheet?, holdings, List.find?_map]
  rfl

theorem getSheet_holdings (db : Database) (id : SheetId) (playground : PlaygroundId) :
    db.holdings.getSheet id playground = db.readSheet id playground := by
  rw [Holdings.getSheet, sheet?_holdings, readSheet]
  cases found : db.sheets.find? fun row => row.id = id && row.playground = playground with
  | none => rfl
  | some row =>
      obtain ⟨rfl, rfl⟩ : row.id = id ∧ row.playground = playground := by
        simpa using List.find?_some found
      simp only [Option.map_some, KeptSheet.read, kept]
      cases readColumn PipelineGraph.parse row.graph <;> rfl

theorem listing_holdings (db : Database) (playground : PlaygroundId) :
    db.holdings.listing playground =
      (db.sheets.filter (·.playground = playground)).map db.summary := by
  rw [Holdings.listing, holdings, List.filter_map, List.map_map]
  refine List.map_congr_left fun row _ => ?_
  rw [Function.comp, KeptSheet.summary, kept, summary, filesOf, List.length_map,
    (orderBy_perm _).length_eq]

theorem listRuns_holdings (db : Database) (id : SheetId) :
    db.holdings.listRuns id = db.readRuns id := by
  have read : KeptRun.read id ∘ keptRun = readRun id := by
    funext row
    rw [Function.comp, readRun, KeptRun.read, keptRun]
    cases readColumn Json.parse row.timings <;> rfl
  rw [Holdings.listRuns, has_holdings, readRuns, holdings, List.mapM_map, read]
  rfl

/-- A sheet's files are read as they were written, and no other sheet's files are changed. -/
theorem filesOf_rewritten {db db' : Database} {sheet : SheetId} {files : List SourceFile}
    (changed : db'.files = rewritten db.files sheet files) (other : SheetId) :
    db'.filesOf other = if other = sheet then files else db.filesOf other := by
  rw [filesOf, changed, filter_rewritten]
  split
  · rw [orderBy_fileRows, map_file_fileRows]
  · rfl

theorem holdings_createSheet {db db' : Database} {id : SheetId} {playground : PlaygroundId}
    {title : String} {files : List SourceFile} (fresh : ∀ row ∈ db.sheets, row.id ≠ id)
    (eq : db' = { db with
      sheets := db.sheets ++ [{ id, playground, title }]
      files := rewritten db.files id files }) :
    db'.holdings =
      { db.holdings with
        sheets := db.holdings.sheets ++ [{ id, playground, title, files }] } := by
  have changed : db'.files = rewritten db.files id files := by rw [eq]
  have old (row : SheetRow) (mem : row ∈ db.sheets) : db'.kept row = db.kept row := by
    rw [kept, filesOf_rewritten changed, if_neg (fresh row mem)]
    rfl
  let row : SheetRow := { id, playground, title }
  have new : db'.kept row = { id, playground, title, files } := by
    rw [kept, filesOf_rewritten changed, if_pos rfl]
    rfl
  have sheets : (db.sheets ++ [row]).map db'.kept =
      db.holdings.sheets ++ [{ id := id, playground, title, files }] := by
    rw [List.map_append, List.map_congr_left old, List.map_singleton, new]
    rfl
  subst eq
  exact congrArg (fun sheets => ({ db.holdings with sheets } : Holdings)) sheets

theorem holdings_replaceFiles {db db' : Database} {id : SheetId} {files : List SourceFile}
    (eq : db' = { db with files := rewritten db.files id files }) :
    db'.holdings = db.holdings.modify id fun k => { k with files } := by
  have changed : db'.files = rewritten db.files id files := by rw [eq]
  have kept_eq (row : SheetRow) : db'.kept row =
      if row.id = id then { db.kept row with files } else db.kept row := by
    rw [kept, filesOf_rewritten changed]
    split <;> rfl
  have sheets : db.sheets.map db'.kept =
      db.holdings.sheets.map fun k => if k.id = id then { k with files } else k := by
    rw [holdings, List.map_map]
    exact List.map_congr_left fun row _ => kept_eq row
  subst eq
  exact congrArg (fun sheets => ({ db.holdings with sheets } : Holdings)) sheets

theorem holdings_updateGraph (db : Database) (id : SheetId) (graph : PipelineGraph) :
    holdings { db with sheets := db.sheets.map fun row =>
        if row.id = id then { row with graph := some graph.compact } else row } =
      db.holdings.modify id fun k => { k with graph := Keeping.relational.graph graph } := by
  simp only [holdings, Holdings.modify, List.map_map, Holdings.mk.injEq, and_true]
  refine List.map_congr_left fun row _ => ?_
  by_cases here : row.id = id
  · simp only [Function.comp, here, if_pos, kept]
    rfl
  · simp only [Function.comp, here, if_false, kept]
    rfl

theorem holdings_insertRun (db : Database) (now : Int) (run : RunRecord) :
    let row : RunRow := {
      id := db.runSequence + 1
      sheet := run.sheet
      output := run.output
      timings := run.timings.map Json.compact
      exitCode := run.exitCode
      createdAt := JulianDay.currentTimestamp now }
    holdings { db with runs := db.runs ++ [row], runSequence := db.runSequence + 1 } =
      db.holdings.addRun .relational now run := by
  intro row
  have same (a b : RunRow) : isNewer a b = KeptRun.isNewer (keptRun a) (keptRun b) := rfl
  simp only [holdings, Holdings.addRun, Holdings.mk.injEq, and_true]
  refine ⟨rfl, ?_⟩
  funext sheet
  by_cases here : run.sheet = sheet
  · subst here
    have added : (db.runs ++ [row]).filter (·.sheet = run.sheet) =
        db.runs.filter (·.sheet = run.sheet) ++ [row] := by simp [row]
    rw [added, orderBy_append, map_insertSorted same, Function.update_self]
    rfl
  · have not_added : (db.runs ++ [row]).filter (·.sheet = sheet) =
        db.runs.filter (·.sheet = sheet) := by simp [row, here]
    rw [not_added, Function.update_of_ne (Ne.symm here)]

theorem apply_holdings {db : Database} {α : Type} {op : StoreOp α}
    (fresh : ∀ id ∈ op.createdId?, ∀ row ∈ db.sheets, row.id ≠ id) :
    ((db.apply op).1, (db.apply op).2.holdings) = db.holdings.apply .relational op := by
  cases op with
  | createSheet id playground title files =>
      rw [apply_createSheet]
      exact congrArg _ (holdings_createSheet (fresh id rfl) rfl)
  | getSheet id playground =>
      rw [Holdings.apply, getSheet_holdings]
      rfl
  | listSheets playground =>
      rw [Holdings.apply, listing_holdings]
      rfl
  | replaceFiles id playground files =>
      rw [Holdings.apply, sheet?_holdings, Option.isSome_map, List.isSome_find?,
        apply_replaceFiles]
      split
      · exact congrArg _ (holdings_replaceFiles rfl)
      · rfl
  | saveGraph id graph =>
      rw [Holdings.apply, has_holdings, apply_saveGraph]
      split
      · exact congrArg _ (holdings_updateGraph db id graph)
      · rfl
  | insertRun now run =>
      rw [Holdings.apply, has_holdings, apply_insertRun]
      split
      · exact congrArg _ (holdings_insertRun db now run)
      · rfl
  | listRuns id =>
      rw [Holdings.apply, listRuns_holdings]
      rfl

end Database

end AgentWorkbench
