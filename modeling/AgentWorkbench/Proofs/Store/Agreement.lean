import AgentWorkbench.Proofs.Store.Tables
import AgentWorkbench.Proofs.Store.Timestamp
import AgentWorkbench.Store.InMemory

/-!
The two stores give the same answers. The tables of the database are those of the sheets and runs
kept in memory, one row for each, and what an operation does to the one it does to the other.
-/
namespace AgentWorkbench

namespace StoreOp

def createdId? {α : Type} : StoreOp α → Option SheetId
  | createSheet id .. => some id
  | _ => none

/-- The time that the operation reads from the clock. -/
def reading? {α : Type} : StoreOp α → Option Int
  | insertRun now _ => some now
  | _ => none

/-- What the operation hands over to be kept as text is read back from its text. -/
def Rereads {α : Type} : StoreOp α → Prop
  | saveGraph _ graph => PipelineGraph.parse graph.compact = .ok graph
  | insertRun _ run => ∀ timings ∈ run.timings, Json.parse timings.compact = .ok timings
  | _ => True

end StoreOp

/-- An operation with the type of its result. -/
abbrev StoreRequest := Sigma StoreOp

/-- What a store answers to operations, one after the other. -/
def SheetStore.answers {σ : Type} [SheetStore σ] (store : σ) :
    List StoreRequest → List (Sigma (Except StorageError))
  | [] => []
  | ⟨α, op⟩ :: rest =>
    ⟨α, (apply op store).1⟩ :: answers (apply op store).2 rest

/-- New ids are fresh, the clock does not go back and stays between 1970 and the end of the year
9999, and what is kept as text is read back from it. -/
structure Supplied (requests : List StoreRequest) : Prop where
  fresh : (requests.filterMap (·.2.createdId?)).Nodup
  clock : (requests.filterMap (·.2.reading?)).Pairwise (· ≤ ·)
  dated : ∀ now ∈ requests.filterMap (·.2.reading?), 0 ≤ now ∧ now ≤ Timestamp.lastSecond
  rereads : ∀ request ∈ requests, request.2.Rereads

namespace SheetRow

def ofSheet (sheet : Sheet) : SheetRow where
  id := sheet.id
  playground := sheet.playground
  title := sheet.title
  graph := sheet.graph.map PipelineGraph.compact

end SheetRow

namespace RunRow

def ofStored (stored : StoredRun) : RunRow where
  id := stored.id
  sheet := stored.run.sheet
  output := stored.run.output
  timings := stored.run.timings.map Json.compact
  exitCode := stored.run.exitCode
  createdAt := stored.createdAt

end RunRow

/-- The tables hold what the memory holds. -/
structure Tabled (m : InMemoryStore) (db : Database) : Prop where
  sheets : db.sheets = m.sheets.map SheetRow.ofSheet
  files : ∀ sheet ∈ m.sheets,
    db.files.filter (·.sheet = sheet.id) = Database.fileRows sheet.id 0 sheet.files
  runs : db.runs = m.runs.map RunRow.ofStored
  sequence : db.runSequence = m.lastRunId

/-- What the memory holds after these requests. -/
structure Grown (past : List StoreRequest) (m : InMemoryStore) : Prop where
  distinct : (m.sheets.map (·.id)).Nodup
  created : ∀ sheet ∈ m.sheets, sheet.id ∈ past.filterMap (·.2.createdId?)
  graphs : ∀ sheet ∈ m.sheets, ∀ graph ∈ sheet.graph,
    PipelineGraph.parse graph.compact = .ok graph
  timings : ∀ stored ∈ m.runs, ∀ timings ∈ stored.run.timings,
    Json.parse timings.compact = .ok timings
  numbered : ∀ stored ∈ m.runs, stored.id ≤ m.lastRunId
  dated : ∀ stored ∈ m.runs, ∃ now ∈ past.filterMap (·.2.reading?),
    stored.createdAt = Timestamp.formatUtc now
  ordered : m.runs.Pairwise fun a b => a.createdAt ≤ b.createdAt ∧ a.id < b.id

theorem Grown.mono {past past' : List StoreRequest} {m : InMemoryStore} (g : Grown past m)
    (h : past ⊆ past') : Grown past' m where
  distinct := g.distinct
  created sheet mem := List.filterMap_subset _ h (g.created sheet mem)
  graphs := g.graphs
  timings := g.timings
  numbered := g.numbered
  dated stored mem := by
    obtain ⟨now, read, createdAt⟩ := g.dated stored mem
    exact ⟨now, List.filterMap_subset _ h read, createdAt⟩
  ordered := g.ordered

section Lookup

variable {past : List StoreRequest} {m : InMemoryStore} {db : Database}

theorem InMemoryStore.find?_eq_scoped? (distinct : (m.sheets.map (·.id)).Nodup) (id : SheetId)
    (playground : PlaygroundId) :
    m.sheets.find? (fun sheet => sheet.id = id && sheet.playground = playground) =
      m.scoped? id playground := by
  rw [scoped?, sheet?]
  generalize m.sheets = sheets at distinct
  induction sheets with
  | nil => rfl
  | cons sheet rest ih =>
      obtain ⟨first, distinct⟩ := List.nodup_cons.mp distinct
      by_cases here : sheet.id = id
      · have no_other : rest.find? (fun other => other.id = id && other.playground = playground) =
            none := by
          refine List.find?_eq_none.mpr fun other mem => ?_
          have : other.id ≠ id := fun same =>
            first (List.mem_map.mpr ⟨other, mem, same.trans here.symm⟩)
          simp [this]
        by_cases owned : sheet.playground = playground <;>
          simp [here, owned, no_other, Option.filter]
      · simp [here, ih distinct]

theorem Tabled.any_eq_has (t : Tabled m db) (id : SheetId) :
    db.sheets.any (·.id = id) = m.has id := by
  rw [t.sheets, List.any_map, InMemoryStore.has, InMemoryStore.sheet?, List.isSome_find?]
  rfl

theorem Tabled.find?_eq_scoped? (t : Tabled m db) (g : Grown past m) (id : SheetId)
    (playground : PlaygroundId) :
    db.sheets.find? (fun row => row.id = id && row.playground = playground) =
      (m.scoped? id playground).map SheetRow.ofSheet := by
  rw [t.sheets, List.find?_map, ← InMemoryStore.find?_eq_scoped? g.distinct]
  rfl

theorem Tabled.any_eq_scoped? (t : Tabled m db) (g : Grown past m) (id : SheetId)
    (playground : PlaygroundId) :
    db.sheets.any (fun row => row.id = id && row.playground = playground) =
      (m.scoped? id playground).isSome := by
  rw [← List.isSome_find?, t.find?_eq_scoped? g, Option.isSome_map]

theorem InMemoryStore.mem_of_scoped? {id : SheetId} {playground : PlaygroundId} {sheet : Sheet}
    (h : m.scoped? id playground = some sheet) :
    sheet ∈ m.sheets ∧ sheet.id = id ∧ sheet.playground = playground := by
  obtain ⟨found, owned⟩ := Option.filter_eq_some_iff.mp h
  exact ⟨List.mem_of_find?_eq_some found, by simpa using List.find?_some found, by simpa using owned⟩

end Lookup

theorem Database.readColumn_map {α : Type} {parse : String → Except JsonError α} {write : α → String}
    {a : Option α} (h : ∀ x ∈ a, parse (write x) = .ok x) :
    readColumn parse (a.map write) = .ok a := by
  cases a with
  | none => rfl
  | some x => simp [readColumn, h x rfl]

/-- After an operation both stores have given the same answer, and hold the same again. -/
structure StepAgrees {α : Type} (past : List StoreRequest) (m : InMemoryStore) (db : Database)
    (op : StoreOp α) : Prop where
  answer : (m.apply op).1 = (db.apply op).1
  tabled : Tabled (m.apply op).2 (db.apply op).2
  grown : Grown (past ++ [⟨α, op⟩]) (m.apply op).2

section Step

variable {past : List StoreRequest} {m : InMemoryStore} {db : Database}

theorem StepAgrees.of_read {α : Type} {op : StoreOp α} {answer : Except StorageError α}
    (t : Tabled m db) (g : Grown past m) (memory : m.apply op = (answer, m))
    (tables : db.apply op = (answer, db)) : StepAgrees past m db op where
  answer := by rw [memory, tables]
  tabled := by rwa [memory, tables]
  grown := by
    rw [memory]
    exact g.mono (List.subset_append_left _ _)

theorem getSheet_agrees (t : Tabled m db) (g : Grown past m) (id : SheetId)
    (playground : PlaygroundId) : StepAgrees past m db (.getSheet id playground) := by
  have found := t.find?_eq_scoped? g id playground
  cases owned : m.scoped? id playground with
  | none =>
      rw [owned] at found
      refine .of_read t g (by rw [InMemoryStore.apply, owned]) ?_
      rw [Database.apply, Database.readSheet, found]
      rfl
  | some sheet =>
      rw [owned] at found
      obtain ⟨mem, rfl, rfl⟩ := InMemoryStore.mem_of_scoped? owned
      have graph : Database.readColumn PipelineGraph.parse (SheetRow.ofSheet sheet).graph =
          .ok sheet.graph :=
        Database.readColumn_map (g.graphs sheet mem)
      have files : db.filesOf sheet.id = sheet.files := by
        rw [Database.filesOf, t.files sheet mem, Database.orderBy_fileRows,
          Database.map_file_fileRows]
      refine .of_read t g (by rw [InMemoryStore.apply, owned]) ?_
      simp only [Database.apply, Database.readSheet, found, Option.map_some, graph, files]
      rfl

theorem listSheets_agrees (t : Tabled m db) (g : Grown past m) (playground : PlaygroundId) :
    StepAgrees past m db (.listSheets playground) := by
  refine .of_read t g rfl ?_
  have summaries : (db.sheets.filter (·.playground = playground)).map db.summary =
      (m.sheets.filter (·.playground = playground)).map InMemoryStore.summary := by
    rw [t.sheets, List.filter_map, List.map_map]
    refine List.map_congr_left fun sheet mem => ?_
    have count : (db.files.filter (·.sheet = sheet.id)).length = sheet.files.length := by
      rw [t.files sheet (List.mem_filter.mp mem).1, Database.length_fileRows]
    exact congrArg (SheetSummary.mk sheet.id sheet.title) count
  rw [Database.apply, summaries]

theorem Grown.readRuns_ofStored (g : Grown past m) (id : SheetId) {runs : List StoredRun}
    (sub : runs ⊆ m.runs) (same : ∀ stored ∈ runs, stored.run.sheet = id) :
    (runs.map RunRow.ofStored).mapM (Database.readRun id) = .ok runs := by
  induction runs with
  | nil => rfl
  | cons stored rest ih =>
      have timings : Database.readColumn Json.parse (RunRow.ofStored stored).timings =
          .ok stored.run.timings :=
        Database.readColumn_map (g.timings stored (sub (List.mem_cons_self ..)))
      have first : Database.readRun id (RunRow.ofStored stored) = .ok stored := by
        rw [Database.readRun, timings, ← same stored (List.mem_cons_self ..)]
        rfl
      rw [List.map_cons, List.mapM_cons, first, ih (fun _ mem => sub (List.mem_cons_of_mem _ mem))
        fun _ mem => same _ (List.mem_cons_of_mem _ mem)]
      rfl

theorem listRuns_agrees (t : Tabled m db) (g : Grown past m) (id : SheetId) :
    StepAgrees past m db (.listRuns id) := by
  by_cases has : m.has id
  · refine .of_read t g (by rw [InMemoryStore.apply, if_pos has]) ?_
    have rows : db.runs.filter (·.sheet = id) =
        (m.runs.filter (·.run.sheet = id)).map RunRow.ofStored := by
      rw [t.runs, List.filter_map]
      rfl
    have newest_first : Database.orderBy Database.isNewer (db.runs.filter (·.sheet = id)) =
        (m.runs.reverse.filter (·.run.sheet = id)).map RunRow.ofStored := by
      rw [rows, Database.orderBy_eq_reverse, List.filter_reverse, List.map_reverse]
      refine List.pairwise_map.mpr ((g.ordered.filter _).imp fun ⟨createdAt, number⟩ => ?_)
      obtain lt | eq := lt_or_eq_of_le createdAt
      · simp [Database.isNewer, RunRow.ofStored, lt]
      · simp [Database.isNewer, RunRow.ofStored, eq, number]
    rw [Database.apply, Database.readRuns, t.any_eq_has, if_pos has, newest_first,
      g.readRuns_ofStored id]
    · exact fun _ mem => List.mem_reverse.mp (List.mem_filter.mp mem).1
    · exact fun _ mem => by simpa using (List.mem_filter.mp mem).2
  · refine .of_read t g (by rw [InMemoryStore.apply, if_neg has]) ?_
    rw [Database.apply, Database.readRuns, t.any_eq_has, if_neg has]
    rfl

theorem Grown.appendSheet (g : Grown past m) {sheet : Sheet}
    (others : ∀ other ∈ m.sheets, other.id ≠ sheet.id)
    (created : sheet.id ∈ past.filterMap (·.2.createdId?)) (no_graph : sheet.graph = none) :
    Grown past { m with sheets := m.sheets ++ [sheet] } :=
  { g with
    distinct := by
      rw [List.map_append, List.nodup_append]
      refine ⟨g.distinct, by simp, fun id mem new new_mem same => ?_⟩
      obtain ⟨other, there, rfl⟩ := List.mem_map.mp mem
      obtain rfl := List.mem_singleton.mp new_mem
      exact others other there same
    created := List.forall_mem_append.mpr ⟨g.created, List.forall_mem_singleton.mpr created⟩
    graphs := List.forall_mem_append.mpr
      ⟨g.graphs, List.forall_mem_singleton.mpr (by simp [no_graph])⟩ }

theorem createSheet_agrees (t : Tabled m db) (g : Grown past m) {id : SheetId}
    (fresh : id ∉ past.filterMap (·.2.createdId?)) (playground : PlaygroundId) (title : String)
    (files : List SourceFile) :
    StepAgrees past m db (.createSheet id playground title files) := by
  have tables := db.apply_createSheet id playground title files
  have others : ∀ sheet ∈ m.sheets, sheet.id ≠ id := fun sheet mem same =>
    fresh (same ▸ g.created sheet mem)
  refine ⟨by rw [tables]; rfl, ?_, ?_⟩
  · rw [tables]
    exact { t with
      sheets := by
        change db.sheets ++ [_] = (m.sheets ++ [_]).map _
        rw [t.sheets, List.map_append]
        rfl
      files := by
        intro sheet mem
        rw [Database.filter_rewritten]
        obtain mem | mem := List.mem_append.mp mem
        · rw [if_neg (others sheet mem), t.files sheet mem]
        · obtain rfl := List.mem_singleton.mp mem
          rw [if_pos rfl] }
  · exact (g.mono (List.subset_append_left past _)).appendSheet others
      (by simp [StoreOp.createdId?]) rfl

theorem Grown.modifySheet (g : Grown past m) (id : SheetId) {f : Sheet → Sheet}
    (same_id : ∀ sheet, (f sheet).id = sheet.id)
    (rereads : ∀ sheet ∈ m.sheets, ∀ graph ∈ (f sheet).graph,
      PipelineGraph.parse graph.compact = .ok graph) :
    Grown past (m.modifySheet id f) :=
  have modified_id (sheet : Sheet) : (if sheet.id = id then f sheet else sheet).id = sheet.id := by
    split
    · exact same_id sheet
    · rfl
  { g with
    distinct := by
      rw [InMemoryStore.modifySheet, List.map_map]
      simpa only [Function.comp_def, modified_id] using g.distinct
    created := by
      intro _ mem
      obtain ⟨sheet, there, rfl⟩ := List.mem_map.mp mem
      rw [modified_id]
      exact g.created sheet there
    graphs := by
      intro _ mem
      obtain ⟨sheet, there, rfl⟩ := List.mem_map.mp mem
      split
      · exact rereads sheet there
      · exact g.graphs sheet there }

theorem replaceFiles_agrees (t : Tabled m db) (g : Grown past m) (id : SheetId)
    (playground : PlaygroundId) (files : List SourceFile) :
    StepAgrees past m db (.replaceFiles id playground files) := by
  have answered := db.apply_replaceFiles id playground files
  rw [t.any_eq_scoped? g] at answered
  cases there : (m.scoped? id playground).isSome with
  | false =>
      rw [if_neg (by simp [there])] at answered
      exact .of_read t g (by rw [InMemoryStore.apply, if_neg (by simp [there])]) answered
  | true =>
      have memory : m.apply (.replaceFiles id playground files) =
          (.ok (), m.modifySheet id fun found => { found with files }) := by
        rw [InMemoryStore.apply, if_pos there]
      rw [if_pos there] at answered
      refine ⟨by rw [memory, answered], ?_, ?_⟩
      · rw [memory, answered]
        exact { t with
          sheets := by
            change db.sheets = (m.sheets.map _).map _
            rw [t.sheets, List.map_map]
            refine List.map_congr_left fun sheet _ => ?_
            rw [Function.comp]
            split <;> rfl
          files := by
            intro _ mem
            obtain ⟨sheet, there, rfl⟩ := List.mem_map.mp mem
            rw [Database.filter_rewritten]
            by_cases same : sheet.id = id
            · simp [same]
            · simp [same, t.files sheet there] }
      · rw [memory]
        exact (g.mono (List.subset_append_left _ _)).modifySheet id (fun _ => rfl) g.graphs

theorem saveGraph_agrees (t : Tabled m db) (g : Grown past m) (id : SheetId)
    {graph : PipelineGraph} (rereads : PipelineGraph.parse graph.compact = .ok graph) :
    StepAgrees past m db (.saveGraph id graph) := by
  have answered := db.apply_saveGraph id graph
  rw [t.any_eq_has] at answered
  cases has : m.has id with
  | false =>
      rw [if_neg (by simp [has])] at answered
      exact .of_read t g (by rw [InMemoryStore.apply, if_neg (by simp [has])]) answered
  | true =>
      have memory : m.apply (.saveGraph id graph) =
          (.ok (), m.modifySheet id fun found => { found with graph }) := by
        rw [InMemoryStore.apply, if_pos has]
      rw [if_pos has] at answered
      refine ⟨by rw [memory, answered], ?_, ?_⟩
      · rw [memory, answered]
        exact { t with
          sheets := by
            change db.sheets.map _ = (m.sheets.map _).map _
            rw [t.sheets, List.map_map, List.map_map]
            refine List.map_congr_left fun sheet _ => ?_
            by_cases same : sheet.id = id <;> simp [SheetRow.ofSheet, same]
          files := by
            intro _ mem
            obtain ⟨sheet, there, rfl⟩ := List.mem_map.mp mem
            split <;> exact t.files sheet there }
      · rw [memory]
        refine (g.mono (List.subset_append_left _ _)).modifySheet id (fun _ => rfl) ?_
        rintro _ _ _ ⟨⟩
        exact rereads

theorem Grown.appendRun (g : Grown past m) {now : Int} (read : now ∈ past.filterMap (·.2.reading?))
    (le : now ≤ Timestamp.lastSecond)
    (later : ∀ stored ∈ m.runs, ∃ before, 0 ≤ before ∧ before ≤ now ∧
      stored.createdAt = Timestamp.formatUtc before) {run : RunRecord}
    (rereads : ∀ timings ∈ run.timings, Json.parse timings.compact = .ok timings) :
    let stored : StoredRun := { id := m.lastRunId + 1, run, createdAt := Timestamp.formatUtc now }
    Grown past { m with lastRunId := m.lastRunId + 1, runs := m.runs ++ [stored] } :=
  { g with
    timings := List.forall_mem_append.mpr ⟨g.timings, List.forall_mem_singleton.mpr rereads⟩
    numbered := List.forall_mem_append.mpr
      ⟨fun other mem => (g.numbered other mem).trans (Nat.le_succ _),
        List.forall_mem_singleton.mpr (Nat.le_refl _)⟩
    dated := List.forall_mem_append.mpr
      ⟨g.dated, List.forall_mem_singleton.mpr ⟨now, read, rfl⟩⟩
    ordered := by
      refine List.pairwise_append.mpr ⟨g.ordered, List.pairwise_singleton _ _, ?_⟩
      intro other mem new new_mem
      obtain rfl := List.mem_singleton.mp new_mem
      obtain ⟨before, nonneg, not_later, createdAt⟩ := later other mem
      refine ⟨?_, Nat.lt_succ_of_le (g.numbered other mem)⟩
      rw [createdAt]
      obtain lt | rfl := lt_or_eq_of_le not_later
      · exact (Timestamp.formatUtc_lt nonneg lt le).le
      · exact le_refl _ }

theorem insertRun_agrees (t : Tabled m db) (g : Grown past m) {now : Int}
    (dated : 0 ≤ now ∧ now ≤ Timestamp.lastSecond)
    (later : ∀ before ∈ past.filterMap (·.2.reading?), 0 ≤ before ∧ before ≤ now) {run : RunRecord}
    (rereads : ∀ timings ∈ run.timings, Json.parse timings.compact = .ok timings) :
    StepAgrees past m db (.insertRun now run) := by
  have answered := db.apply_insertRun now run
  rw [t.any_eq_has, t.sequence, JulianDay.currentTimestamp_eq dated.1 dated.2] at answered
  cases has : m.has run.sheet with
  | false =>
      rw [if_neg (by simp [has])] at answered
      exact .of_read t g (by rw [InMemoryStore.apply, if_neg (by simp [has])]) answered
  | true =>
      let stored : StoredRun :=
        { id := m.lastRunId + 1, run, createdAt := Timestamp.formatUtc now }
      have memory : m.apply (.insertRun now run) =
          (.ok (m.lastRunId + 1),
            { m with lastRunId := m.lastRunId + 1, runs := m.runs ++ [stored] }) := by
        rw [InMemoryStore.apply, if_pos has, InMemoryStore.insertRun, max_eq_left dated.1]
      rw [if_pos has] at answered
      refine ⟨by rw [memory, answered], ?_, ?_⟩
      · rw [memory, answered]
        exact { t with
          runs := by
            change db.runs ++ [_] = (m.runs ++ [_]).map _
            rw [t.runs, List.map_append]
            rfl
          sequence := rfl }
      · rw [memory]
        refine (g.mono (List.subset_append_left past _)).appendRun (by simp [StoreOp.reading?])
          dated.2 (fun other mem => ?_) rereads
        obtain ⟨before, read, createdAt⟩ := g.dated other mem
        exact ⟨before, (later before read).1, (later before read).2, createdAt⟩

/-- Every operation is answered alike, and leaves the stores alike. -/
theorem apply_agrees {α : Type} {op : StoreOp α} (t : Tabled m db) (g : Grown past m)
    (supplied : Supplied (past ++ [⟨α, op⟩])) : StepAgrees past m db op := by
  have fresh := supplied.fresh
  have clock := supplied.clock
  have dated := supplied.dated
  have rereads : op.Rereads := supplied.rereads ⟨α, op⟩ (by simp)
  rw [List.filterMap_append] at fresh clock dated
  cases op with
  | createSheet id playground title files =>
      refine createSheet_agrees t g ?_ playground title files
      exact fun mem => (List.nodup_append.mp fresh).2.2 id mem id (by simp [StoreOp.createdId?]) rfl
  | getSheet id playground => exact getSheet_agrees t g id playground
  | listSheets playground => exact listSheets_agrees t g playground
  | replaceFiles id playground files => exact replaceFiles_agrees t g id playground files
  | saveGraph id graph => exact saveGraph_agrees t g id rereads
  | insertRun now run =>
      have read : now ∈ [(⟨Nat, .insertRun now run⟩ : StoreRequest)].filterMap (·.2.reading?) := by
        simp [StoreOp.reading?]
      refine insertRun_agrees t g (dated now (List.mem_append_right _ read)) ?_ rereads
      exact fun before mem => ⟨(dated before (List.mem_append_left _ mem)).1,
        (List.pairwise_append.mp clock).2.2 before mem now read⟩
  | listRuns id => exact listRuns_agrees t g id

end Step

theorem Supplied.of_append {requests rest : List StoreRequest} (h : Supplied (requests ++ rest)) :
    Supplied requests where
  fresh := by
    have := h.fresh
    rw [List.filterMap_append] at this
    exact (List.nodup_append.mp this).1
  clock := by
    have := h.clock
    rw [List.filterMap_append] at this
    exact (List.pairwise_append.mp this).1
  dated now mem := h.dated now (List.filterMap_subset _ (List.subset_append_left _ _) mem)
  rereads request mem := h.rereads request (List.mem_append_left _ mem)

theorem answers_agree_from {past requests : List StoreRequest} {m : InMemoryStore} {db : Database}
    (supplied : Supplied (past ++ requests)) (t : Tabled m db) (g : Grown past m) :
    SheetStore.answers m requests = SheetStore.answers db requests := by
  induction requests generalizing past m db with
  | nil => rfl
  | cons request rest ih =>
      rw [← List.singleton_append, ← List.append_assoc] at supplied
      have step := apply_agrees t g supplied.of_append
      have first : (SheetStore.apply request.2 m).1 = (SheetStore.apply request.2 db).1 := step.answer
      rw [SheetStore.answers, SheetStore.answers, first]
      exact congrArg _ (ih supplied step.tabled step.grown)

/-- From empty stores on, both stores give the same answers to any operations. -/
theorem backends_agree (requests : List StoreRequest) (supplied : Supplied requests) :
    SheetStore.answers ({} : InMemoryStore) requests = SheetStore.answers ({} : Database) requests := by
  have tabled : Tabled {} {} := ⟨rfl, by simp, rfl, rfl⟩
  have grown : Grown [] {} :=
    ⟨by simp, by simp, by simp, by simp, by simp, by simp, by simp⟩
  exact answers_agree_from (show Supplied ([] ++ requests) from supplied) tabled grown

/-- Two sheets, of which one has a graph and two runs in one second. -/
def sampleRequests : List StoreRequest :=
  [⟨_, .createSheet ⟨"a"⟩ ⟨"p"⟩ "first" [{ filename := "main.py", code := "a = 1\n" }]⟩,
    ⟨_, .createSheet ⟨"b"⟩ ⟨"p"⟩ "second" []⟩,
    ⟨_, .saveGraph ⟨"a"⟩ { error := some "no graph" }⟩,
    ⟨_, .insertRun 951782399 { sheet := ⟨"a"⟩, output := "1", timings := some (.bool true) }⟩,
    ⟨_, .insertRun 951782399 { sheet := ⟨"a"⟩, output := "2" }⟩,
    ⟨_, .listRuns ⟨"a"⟩⟩, ⟨_, .getSheet ⟨"a"⟩ ⟨"p"⟩⟩, ⟨_, .getSheet ⟨"a"⟩ ⟨"q"⟩⟩]

theorem sampleRequests_answered :
    Supplied sampleRequests ∧
      SheetStore.answers ({} : InMemoryStore) sampleRequests =
        SheetStore.answers ({} : Database) sampleRequests := by
  have supplied : Supplied sampleRequests := {
    fresh := by decide
    clock := by decide
    dated := by decide
    rereads := by
      simp only [sampleRequests, List.forall_mem_cons, StoreOp.Rereads]
      refine ⟨trivial, trivial, rfl, ?_, ?_, trivial, trivial, trivial, by simp⟩
      · rintro _ ⟨⟩
        rfl
      · simp }
  exact ⟨supplied, backends_agree sampleRequests supplied⟩

/-- A clock that reads five seconds before 1970. -/
def earlyRequests : List StoreRequest :=
  [⟨_, .createSheet ⟨"a"⟩ ⟨"p"⟩ "" []⟩, ⟨_, .insertRun (-5) { sheet := ⟨"a"⟩, output := "" }⟩,
    ⟨_, .listRuns ⟨"a"⟩⟩]

theorem earlyRequests_answered_differently :
    (earlyRequests.filterMap (·.2.createdId?)).Nodup ∧
      (earlyRequests.filterMap (·.2.reading?)).Pairwise (· ≤ ·) ∧
      (∀ now ∈ earlyRequests.filterMap (·.2.reading?), now ≤ Timestamp.lastSecond) ∧
      (∀ request ∈ earlyRequests, request.2.Rereads) ∧
      SheetStore.answers ({} : InMemoryStore) earlyRequests ≠
        SheetStore.answers ({} : Database) earlyRequests := by
  refine ⟨by decide, by decide, by decide, ?_, fun same => ?_⟩
  · simp [earlyRequests, StoreOp.Rereads]
  · let listed (createdAt : String) : List (Sigma (Except StorageError)) :=
      [⟨SheetId, .ok ⟨"a"⟩⟩, ⟨Nat, .ok 1⟩,
        ⟨List StoredRun, .ok [{ id := 1, run := { sheet := ⟨"a"⟩, output := "" }, createdAt }]⟩]
    have memory : SheetStore.answers ({} : InMemoryStore) earlyRequests =
        listed (Timestamp.formatUtc (max (-5) 0)) := rfl
    have tables : SheetStore.answers ({} : Database) earlyRequests =
        listed (JulianDay.currentTimestamp (-5)) := rfl
    rw [memory, tables] at same
    have times : Timestamp.formatUtc (max (-5) 0) = JulianDay.currentTimestamp (-5) := by
      simpa [listed] using same
    exact absurd times (by decide +kernel)

end AgentWorkbench
