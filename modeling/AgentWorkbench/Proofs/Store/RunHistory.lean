import AgentWorkbench.Proofs.Store.Reached
import Mathlib.Data.List.Forall2

/-!
The runs of a sheet, newest first. A store takes runs in under increasing ids. In memory they are
listed in the reverse order of their ids, whatever the clock reads; the database lists them by the
times that it wrote, which is the same order exactly if these never step back.
-/
namespace AgentWorkbench

/-- A run that a store took in, under the id it answered and at the time it read from the clock. -/
structure Insertion where
  id : Nat
  now : Int
  run : RunRecord

def StoreOp.insertion? {α : Type} : StoreOp α → Except StorageError α → Option Insertion
  | insertRun now run, .ok id => some { id, now, run }
  | _, _ => none

/-- The runs that a store takes in with operations, in their order. -/
def SheetStore.insertions {σ : Type} [SheetStore σ] (store : σ) : List StoreRequest → List Insertion
  | [] => []
  | ⟨_, op⟩ :: rest =>
    (op.insertion? (apply op store).1).toList ++ insertions (apply op store).2 rest

theorem SheetStore.insertions_append {σ : Type} [SheetStore σ] (store : σ)
    (past : List StoreRequest) {α : Type} (op : StoreOp α) :
    insertions store (past ++ [⟨α, op⟩]) =
      insertions store past ++ (op.insertion? (apply op (after store past)).1).toList := by
  induction past generalizing store with
  | nil => simp [insertions, after]
  | cons request rest ih =>
      rw [List.cons_append, insertions, ih, insertions, List.append_assoc]
      rfl

namespace Insertion

/-- The run as a list of runs shows it, unchanged. -/
def stored (keeping : Keeping) (i : Insertion) : StoredRun where
  id := i.id
  run := i.run
  createdAt := keeping.time i.now

/-- What a store reads back of the run, whose timings may be kept as a text. -/
def read (keeping : Keeping) (i : Insertion) : Except StorageError StoredRun :=
  (keeping.timings i.run.timings).map fun timings =>
    { i.stored keeping with run := { i.run with timings } }

/-- The database wrote a later time for the run, or the same time and a larger id. -/
def Newer (a b : Insertion) : Prop :=
  Keeping.relational.time b.now < Keeping.relational.time a.now ∨
    Keeping.relational.time a.now = Keeping.relational.time b.now ∧ b.id < a.id

/-- The run's timings are what reading their text gives. -/
def Rereads (i : Insertion) : Prop :=
  ∀ timings ∈ i.run.timings, Json.parse timings.compact = .ok timings

end Insertion

/-- No run in the list has a time written that is before the one of a run ahead of it. -/
def NeverStepsBack (runs : List Insertion) : Prop :=
  runs.Pairwise fun a b => Keeping.relational.time a.now ≤ Keeping.relational.time b.now

namespace Backend

/-- The runs of a sheet that operations put into an empty store, in their order. -/
def runsOf (backend : Backend) (requests : List StoreRequest) (sheet : SheetId) : List Insertion :=
  (SheetStore.insertions backend.emptyStore requests).filter (·.run.sheet = sheet)

/-- The store's list of the runs of a sheet after operations on an empty store. -/
def listing (backend : Backend) (requests : List StoreRequest) (sheet : SheetId) :
    Except StorageError (List StoredRun) :=
  (SheetStore.apply (.listRuns sheet) (backend.storeAfter requests)).1

/-- The ids of a sheet's runs increase, and the runs are listed in the reverse of that order, each
once and unchanged. -/
structure NewestFirst (backend : Backend) (requests : List StoreRequest) (sheet : SheetId) :
    Prop where
  increasing : ((backend.runsOf requests sheet).map (·.id)).Pairwise (· < ·)
  listed : backend.listing requests sheet =
    .ok ((backend.runsOf requests sheet).reverse.map (·.stored backend.keeping))

end Backend

/-! Runs as a store keeps them. -/

namespace Insertion

def kept (keeping : Keeping) (i : Insertion) : KeptRun := keeping.newRun i.id i.now i.run

theorem read_kept (keeping : Keeping) (i : Insertion) :
    (i.kept keeping).read i.run.sheet = i.read keeping := rfl

theorem mapM_read_kept {keeping : Keeping} {sheet : SheetId} {runs : List Insertion}
    (of_sheet : ∀ i ∈ runs, i.run.sheet = sheet) :
    (runs.map (kept keeping)).mapM (KeptRun.read sheet) = runs.mapM (read keeping) := by
  induction runs with
  | nil => rfl
  | cons i rest ih =>
      obtain ⟨here, others⟩ := List.forall_mem_cons.mp of_sheet
      subst here
      rw [List.map_cons, List.mapM_cons, List.mapM_cons, ih others, read_kept]

theorem mapM_read_of_reads {keeping : Keeping} {runs : List Insertion}
    (reads : ∀ i ∈ runs, i.read keeping = .ok (i.stored keeping)) :
    runs.mapM (read keeping) = .ok (runs.map (stored keeping)) := by
  have all : (runs.map fun i => i).mapM (read keeping) = .ok (runs.map (stored keeping)) :=
    mapM_read reads
  rwa [List.map_id'] at all

theorem id_of_read {keeping : Keeping} {i : Insertion} {stored : StoredRun}
    (h : i.read keeping = .ok stored) : stored.id = i.id := by
  rw [read] at h
  cases timings : keeping.timings i.run.timings with
  | error e => rw [timings] at h; cases h
  | ok read => rw [timings] at h; cases h; rfl

theorem map_id_of_reads {keeping : Keeping} {runs : List Insertion} {listed : List StoredRun}
    (h : List.Forall₂ (fun i stored => read keeping i = .ok stored) runs listed) :
    listed.map (·.id) = runs.map (·.id) := by
  induction h with
  | nil => rfl
  | cons read _ ih => rw [List.map_cons, List.map_cons, ih, id_of_read read]

theorem read_relational_iff {i : Insertion} :
    i.read .relational = .ok (i.stored .relational) ↔ i.Rereads := by
  obtain ⟨id, now, sheet, output, timings, exitCode⟩ := i
  cases timings with
  | none => simp [read, stored, Rereads, Keeping.relational, Database.readColumn, Except.map]
  | some timings =>
      cases reread : Json.parse timings.compact with
      | error e =>
          simp [read, stored, Rereads, Keeping.relational, Database.readColumn, Except.map, reread]
      | ok json =>
          simp [read, stored, Rereads, Keeping.relational, Database.readColumn, Except.map, reread]

/-- The order in which the database reads runs. -/
def isNewer (a b : Insertion) : Bool :=
  KeptRun.isNewer (a.kept .relational) (b.kept .relational)

theorem isNewer_iff {a b : Insertion} : isNewer a b = true ↔ a.Newer b := by
  simp only [isNewer, KeptRun.isNewer, Bool.or_eq_true, Bool.and_eq_true, decide_eq_true_eq]
  rfl

theorem Newer.trans {a b c : Insertion} (h : a.Newer b) (h' : b.Newer c) : a.Newer c := by
  obtain lt | ⟨eq, lt⟩ := h
  · obtain lt' | ⟨eq', -⟩ := h'
    · exact .inl (lt'.trans lt)
    · exact .inl (eq' ▸ lt)
  · obtain lt' | ⟨eq', lt'⟩ := h'
    · exact .inl (eq ▸ lt')
    · exact .inr ⟨eq.trans eq', lt'.trans lt⟩

theorem Newer.irrefl (a : Insertion) : ¬ a.Newer a := by
  rintro (lt | ⟨-, lt⟩)
  · exact lt_irrefl _ lt
  · exact Nat.lt_irrefl _ lt

theorem Newer.of_not {a b : Insertion} (ne : a.id ≠ b.id) (h : ¬ b.Newer a) : a.Newer b := by
  obtain lt | eq | gt := lt_trichotomy (Keeping.relational.time a.now)
    (Keeping.relational.time b.now)
  · exact absurd (.inl lt) h
  · refine .inr ⟨eq, Nat.lt_of_le_of_ne (Nat.not_lt.mp fun lt => h (.inr ⟨eq.symm, lt⟩)) ne.symm⟩
  · exact .inl gt

theorem orderBy_isNewer_pairwise (runs : List Insertion) :
    (Database.orderBy isNewer runs).Pairwise fun a b => ¬ b.Newer a := by
  have irrefl (i : Insertion) : isNewer i i = false :=
    Bool.eq_false_iff.mpr fun h => Newer.irrefl i (isNewer_iff.mp h)
  have trans (a b c : Insertion) (h : isNewer a b = true) (h' : isNewer b c = true) :
      isNewer a c = true :=
    isNewer_iff.mpr ((isNewer_iff.mp h).trans (isNewer_iff.mp h'))
  refine (Database.orderBy_pairwise irrefl trans runs).imp fun not_newer newer => ?_
  exact Bool.eq_false_iff.mp not_newer (isNewer_iff.mpr newer)

end Insertion

/-- What has become of the runs that a store took in. -/
structure Holdings.Took (h : Holdings) (keeping : Keeping) (runs : List Insertion) : Prop where
  ids : runs.map (·.id) = List.range' 1 h.lastRun
  placed : ∀ sheet, h.runs sheet =
    ((runs.filter (·.run.sheet = sheet)).map (·.kept keeping)).foldl
      (fun listed run => keeping.place run listed) []

namespace Holdings.Took

variable {h : Holdings} {keeping : Keeping} {runs : List Insertion}

theorem length_eq (took : h.Took keeping runs) : h.lastRun = runs.length := by
  have := congrArg List.length took.ids
  rw [List.length_map, List.length_range'] at this
  exact this.symm

theorem increasing (took : h.Took keeping runs) : (runs.map (·.id)).Pairwise (· < ·) :=
  took.ids ▸ List.pairwise_lt_range'

theorem addRun (took : h.Took keeping runs) (now : Int) (run : RunRecord) :
    (h.addRun keeping now run).Took keeping (runs ++ [{ id := h.lastRun + 1, now, run }]) where
  ids := by
    rw [List.map_append, took.ids, Holdings.addRun, List.range'_1_concat, Nat.add_comm 1]
    rfl
  placed sheet := by
    rw [Holdings.addRun, List.filter_append, List.map_append, List.foldl_append, ← took.placed]
    by_cases here : run.sheet = sheet
    · subst here
      simp [Insertion.kept]
    · simp [here, Function.update_of_ne (Ne.symm here)]

theorem same (took : h.Took keeping runs) {h' : Holdings} (last : h'.lastRun = h.lastRun)
    (kept : h'.runs = h.runs) : h'.Took keeping (runs ++ []) where
  ids := by rw [List.append_nil, last, took.ids]
  placed := by rw [List.append_nil, kept]; exact took.placed

/-- An operation puts no run among others but the one that it inserts. -/
theorem apply (took : h.Took keeping runs) {α : Type} (op : StoreOp α) :
    (h.apply keeping op).2.Took keeping
      (runs ++ (op.insertion? (h.apply keeping op).1).toList) := by
  cases op with
  | createSheet _ _ _ _ | getSheet _ _ | listSheets _ | listRuns _ => exact took.same rfl rfl
  | replaceFiles _ _ _ | saveGraph _ _ =>
      rw [Holdings.apply]
      split <;> exact took.same rfl rfl
  | insertRun now run =>
      rw [Holdings.apply]
      split
      · exact took.addRun now run
      · exact took.same rfl rfl

end Holdings.Took

theorem Holdings.After.has_iff {h : Holdings} {past : List StoreRequest} (held : h.After past)
    {id : SheetId} : h.has id = true ↔ id ∈ past.filterMap (·.2.createdId?) := by
  rw [← held.ids, Holdings.has_iff, List.mem_map]

namespace Backend

variable {requests : List StoreRequest} {sheet : SheetId}

theorem took (backend : Backend) (fresh : FreshIds requests) :
    (backend.storeAfter requests).holdings.Took backend.keeping
      (SheetStore.insertions backend.emptyStore requests) := by
  induction requests using List.reverseRecOn with
  | nil =>
      rw [show backend.storeAfter [] = backend.emptyStore from rfl, holdings_emptyStore]
      exact ⟨rfl, fun _ => rfl⟩
  | append_singleton past request ih =>
      obtain ⟨α, op⟩ := request
      obtain ⟨fresh, unused⟩ := fresh_last fresh
      have before := backend.holdings_storeAfter fresh
      obtain ⟨answer, left⟩ := Prod.ext_iff.mp (AnyStore.apply_holdings before.sound
        fun id created => before.has_eq_false (unused id created))
      dsimp only at answer left
      rw [storeAfter_append, left, SheetStore.insertions_append, ← storeAfter, answer,
        keeping_storeAfter]
      exact (ih fresh).apply op

/-- Every backend takes in the same runs under the same ids. -/
theorem insertions_eq (backend backend' : Backend) (fresh : FreshIds requests) :
    SheetStore.insertions backend.emptyStore requests =
      SheetStore.insertions backend'.emptyStore requests := by
  induction requests using List.reverseRecOn with
  | nil => rfl
  | append_singleton past request ih =>
      obtain ⟨α, op⟩ := request
      obtain ⟨fresh, unused⟩ := fresh_last fresh
      have ih := ih fresh
      have held (b : Backend) := b.holdings_storeAfter fresh
      have last : (backend.storeAfter past).holdings.lastRun =
          (backend'.storeAfter past).holdings.lastRun := by
        rw [(took backend fresh).length_eq, (took backend' fresh).length_eq, ih]
      have has (id : SheetId) : (backend.storeAfter past).holdings.has id =
          (backend'.storeAfter past).holdings.has id :=
        Bool.eq_iff_iff.mpr ((held backend).has_iff.trans (held backend').has_iff.symm)
      rw [SheetStore.insertions_append, SheetStore.insertions_append, ih, ← storeAfter,
        ← storeAfter]
      congr 2
      cases op with
      | createSheet _ _ _ _ | getSheet _ _ | listSheets _ | listRuns _ | replaceFiles _ _ _
        | saveGraph _ _ => rfl
      | insertRun now run =>
          rw [AnyStore.answer_eq_holdings (held backend).sound rfl,
            AnyStore.answer_eq_holdings (held backend').sound rfl, Holdings.apply, Holdings.apply,
            has, last]
          split <;> rfl

theorem listing_eq (backend : Backend) (fresh : FreshIds requests)
    (created : sheet ∈ requests.filterMap (·.2.createdId?)) :
    backend.listing requests sheet =
      (((backend.runsOf requests sheet).map (·.kept backend.keeping)).foldl
        (fun listed run => backend.keeping.place run listed) []).mapM (KeptRun.read sheet) := by
  have held := backend.holdings_storeAfter fresh
  rw [listing, AnyStore.answer_eq_holdings held.sound rfl, Holdings.apply, Holdings.listRuns,
    if_pos (held.has_iff.mpr created), (backend.took fresh).placed]
  rfl

theorem runsOf_increasing (backend : Backend) (fresh : FreshIds requests) (sheet : SheetId) :
    ((backend.runsOf requests sheet).map (·.id)).Pairwise (· < ·) :=
  (backend.took fresh).increasing.sublist (List.filter_sublist.map _)

theorem sheet_of_mem_runsOf {backend : Backend} {i : Insertion}
    (mem : i ∈ backend.runsOf requests sheet) : i.run.sheet = sheet := by
  simpa using (List.mem_filter.mp mem).2

theorem mapM_read_listed {backend : Backend} {listed : List Insertion}
    (same : listed.Perm (backend.runsOf requests sheet)) :
    (listed.map (·.kept backend.keeping)).mapM (KeptRun.read sheet) =
      listed.mapM (·.read backend.keeping) :=
  Insertion.mapM_read_kept fun _ mem => sheet_of_mem_runsOf (same.subset mem)

theorem foldl_place_inMemory (runs : List KeptRun) :
    runs.foldl (fun listed run => Keeping.inMemory.place run listed) [] = runs.reverse := by
  induction runs using List.reverseRecOn with
  | nil => rfl
  | append_singleton runs run ih =>
      rw [List.foldl_append, ih, List.reverse_append]
      rfl

/-- In memory the clock does not matter. -/
theorem newestFirst_inMemory (fresh : FreshIds requests)
    (created : sheet ∈ requests.filterMap (·.2.createdId?)) :
    inMemory.NewestFirst requests sheet where
  increasing := inMemory.runsOf_increasing fresh sheet
  listed := by
    rw [listing_eq inMemory fresh created]
    change List.mapM _ (List.foldl (fun listed run => Keeping.inMemory.place run listed) [] _) = _
    rw [foldl_place_inMemory, ← List.map_reverse, mapM_read_listed (List.reverse_perm _)]
    exact Insertion.mapM_read_of_reads fun _ _ => rfl

/-- The database lists the runs from the one with the latest time written on. -/
theorem exists_listed {backend : Backend} (database : backend.keeping = .relational)
    (fresh : FreshIds requests) (created : sheet ∈ requests.filterMap (·.2.createdId?)) :
    ∃ listed : List Insertion, listed.Perm (backend.runsOf requests sheet) ∧
      listed.Pairwise Insertion.Newer ∧
      backend.listing requests sheet = listed.mapM (·.read .relational) := by
  let runs := backend.runsOf requests sheet
  let listed := Database.orderBy Insertion.isNewer runs
  have same : listed.Perm runs := Database.orderBy_perm runs
  refine ⟨listed, same, ?_, ?_⟩
  · have ids : (listed.map (·.id)).Nodup :=
      (same.map _).nodup_iff.mpr ((backend.runsOf_increasing fresh sheet).imp Nat.ne_of_lt)
    refine ((Insertion.orderBy_isNewer_pairwise runs).and (List.pairwise_map.mp ids)).imp ?_
    exact fun ⟨not_newer, ne⟩ => .of_not ne not_newer
  · have reads := mapM_read_listed same
    rw [database] at reads
    have before (a b : Insertion) :
        a.isNewer b = KeptRun.isNewer (a.kept .relational) (b.kept .relational) := rfl
    have placed : listed.map (·.kept .relational) =
        Database.orderBy KeptRun.isNewer (runs.map (·.kept .relational)) :=
      Database.map_orderBy before runs
    rw [listing_eq backend fresh created, database, ← reads, placed]
    rfl

theorem listed_eq_reverse_iff {runs listed : List Insertion}
    (increasing : (runs.map (·.id)).Pairwise (· < ·)) (same : listed.Perm runs)
    (sorted : listed.Pairwise Insertion.Newer) : listed = runs.reverse ↔ NeverStepsBack runs := by
  constructor
  · rintro rfl
    refine (List.pairwise_reverse.mp sorted).imp fun newer => ?_
    obtain lt | ⟨eq, -⟩ := newer
    · exact lt.le
    · exact eq.ge
  · intro steps
    have reversed : runs.reverse.Pairwise Insertion.Newer := by
      refine List.pairwise_reverse.mpr ((steps.and (List.pairwise_map.mp increasing)).imp ?_)
      intro a b ⟨le, lt⟩
      exact (lt_or_eq_of_le le).imp_right fun eq => ⟨eq.symm, lt⟩
    refine List.Perm.eq_of_pairwise (fun a b _ _ h h' => ?_) sorted reversed
      (same.trans (List.reverse_perm _).symm)
    exact absurd (h.trans h') (Insertion.Newer.irrefl a)

/-- Runs under increasing ids are told apart by them. -/
theorem eq_reverse_of_ids {runs listed : List Insertion}
    (increasing : (runs.map (·.id)).Pairwise (· < ·)) (same : listed.Perm runs)
    (ids : listed.map (·.id) = runs.reverse.map (·.id)) : listed = runs.reverse := by
  have decreasing : (listed.map (·.id)).Pairwise (· > ·) := by
    rw [ids, List.map_reverse]
    exact List.pairwise_reverse.mpr increasing
  have asymm (a b : Insertion) (h : a.id > b.id) (h' : b.id > a.id) : a = b :=
    absurd h' (Nat.lt_asymm h)
  exact List.Perm.eq_of_pairwise (fun a b _ _ => asymm a b) (List.pairwise_map.mp decreasing)
    (List.pairwise_map.mp (ids ▸ decreasing)) (same.trans (List.reverse_perm _).symm)

theorem forall₂_of_mapM {ε α β : Type} {f : α → Except ε β} {as : List α} {bs : List β}
    (h : as.mapM f = .ok bs) : List.Forall₂ (fun a b => f a = .ok b) as bs := by
  induction as generalizing bs with
  | nil => cases h; exact .nil
  | cons a as ih =>
      rw [List.mapM_cons] at h
      cases first : f a with
      | error e => rw [first] at h; cases h
      | ok b =>
          cases others : as.mapM f with
          | error e => rw [first, others] at h; cases h
          | ok rest =>
              rw [first, others] at h
              cases h
              exact .cons first (ih others)

/-- The listing is the reverse of the insertions exactly if the database reads the timings back and
its times never step back. -/
theorem newestFirst_iff {backend : Backend} (database : backend.keeping = .relational)
    (fresh : FreshIds requests) (created : sheet ∈ requests.filterMap (·.2.createdId?)) :
    backend.NewestFirst requests sheet ↔
      (∀ i ∈ backend.runsOf requests sheet, i.Rereads) ∧
        NeverStepsBack (backend.runsOf requests sheet) := by
  have increasing := backend.runsOf_increasing fresh sheet
  obtain ⟨listed, same, sorted, listing⟩ := exists_listed database fresh created
  have reversed_iff := listed_eq_reverse_iff increasing same sorted
  constructor
  · rintro ⟨-, shown⟩
    rw [listing, database] at shown
    have reads := forall₂_of_mapM shown
    have ids : listed.map (·.id) = (backend.runsOf requests sheet).reverse.map (·.id) := by
      rw [← Insertion.map_id_of_reads reads, List.map_map]
      rfl
    have reversed := eq_reverse_of_ids increasing same ids
    refine ⟨fun i mem => ?_, reversed_iff.mp reversed⟩
    rw [reversed, List.forall₂_map_right_iff, List.forall₂_same] at reads
    exact Insertion.read_relational_iff.mp (reads i (List.mem_reverse.mpr mem))
  · rintro ⟨rereads, steps⟩
    refine ⟨increasing, ?_⟩
    rw [listing, database, reversed_iff.mpr steps]
    exact Insertion.mapM_read_of_reads fun i mem =>
      Insertion.read_relational_iff.mpr (rereads i (List.mem_reverse.mp mem))

/-- From 1970 to the end of the year 9999 the times written step back exactly where the clock
does. -/
theorem neverStepsBack_iff {runs : List Insertion}
    (dated : ∀ i ∈ runs, 0 ≤ i.now ∧ i.now ≤ Timestamp.lastSecond) :
    NeverStepsBack runs ↔ runs.Pairwise fun a b => a.now ≤ b.now := by
  have time {i : Insertion} (mem : i ∈ runs) :
      Keeping.relational.time i.now = Timestamp.formatUtc i.now :=
    JulianDay.currentTimestamp_eq (dated i mem).1 (dated i mem).2
  refine List.Pairwise.iff_of_mem fun {a b} a_mem b_mem => ?_
  rw [time a_mem, time b_mem]
  constructor
  · intro le
    by_contra gt
    have lt := Timestamp.formatUtc_lt (dated b b_mem).1 (Int.not_le.mp gt) (dated a a_mem).2
    exact absurd lt le.not_gt
  · intro le
    obtain lt | eq := lt_or_eq_of_le le
    · exact (Timestamp.formatUtc_lt (dated a a_mem).1 lt (dated b b_mem).2).le
    · rw [eq]

theorem keeping_eq_relational {backend : Backend} (ne : backend ≠ .inMemory) :
    backend.keeping = .relational := by
  cases backend with
  | inMemory => contradiction
  | database | databaseFile => rfl

/-- Every store takes in the same runs. In memory those of a sheet are listed in the reverse order
whatever the clock reads. A database lists each of them once, by the times it wrote; that is the
same order exactly if these never step back, and the runs are unchanged exactly if, further, their
timings are read back from their texts. -/
theorem newestFirst_exactly (requests : List StoreRequest) (fresh : FreshIds requests)
    (sheet : SheetId) (created : sheet ∈ requests.filterMap (·.2.createdId?)) :
    inMemory.NewestFirst requests sheet ∧
    ∀ backend : Backend, backend ≠ .inMemory →
      backend.runsOf requests sheet = inMemory.runsOf requests sheet ∧
      (∃ listed : List Insertion, listed.Perm (backend.runsOf requests sheet) ∧
        listed.Pairwise Insertion.Newer ∧
        backend.listing requests sheet = listed.mapM (·.read .relational) ∧
        (listed = (backend.runsOf requests sheet).reverse ↔
          NeverStepsBack (backend.runsOf requests sheet))) ∧
      (backend.NewestFirst requests sheet ↔
        (∀ i ∈ backend.runsOf requests sheet, i.Rereads) ∧
          NeverStepsBack (backend.runsOf requests sheet)) ∧
      ((∀ i ∈ backend.runsOf requests sheet, 0 ≤ i.now ∧ i.now ≤ Timestamp.lastSecond) →
        (NeverStepsBack (backend.runsOf requests sheet) ↔
          (backend.runsOf requests sheet).Pairwise fun a b => a.now ≤ b.now)) := by
  refine ⟨newestFirst_inMemory fresh created, fun backend ne => ?_⟩
  have database := keeping_eq_relational ne
  obtain ⟨listed, same, sorted, listing⟩ := exists_listed database fresh created
  refine ⟨?_, ⟨listed, same, sorted, listing, ?_⟩, newestFirst_iff database fresh created,
    neverStepsBack_iff⟩
  · rw [runsOf, runsOf, insertions_eq backend .inMemory fresh]
  · exact listed_eq_reverse_iff (backend.runsOf_increasing fresh sheet) same sorted

theorem newestFirst_exactly_sample :
    FreshIds sampleRequests ∧ ⟨"a"⟩ ∈ sampleRequests.filterMap (·.2.createdId?) ∧
      inMemory.NewestFirst sampleRequests ⟨"a"⟩ ∧ database.NewestFirst sampleRequests ⟨"a"⟩ := by
  have fresh : FreshIds sampleRequests := by decide
  have created : ⟨"a"⟩ ∈ sampleRequests.filterMap (·.2.createdId?) := by decide
  obtain ⟨in_memory, in_tables⟩ := newestFirst_exactly sampleRequests fresh ⟨"a"⟩ created
  obtain ⟨-, -, newest_first_iff, -⟩ := in_tables .database (by decide)
  have runs : database.runsOf sampleRequests ⟨"a"⟩ =
      [{ id := 1, now := 951782399
         run := { sheet := ⟨"a"⟩, output := "1", timings := some (.bool true) } },
        { id := 2, now := 951782399, run := { sheet := ⟨"a"⟩, output := "2" } }] := rfl
  refine ⟨fresh, created, in_memory, newest_first_iff.mpr ?_⟩
  rw [runs]
  refine ⟨?_, List.pairwise_pair.mpr (le_refl _)⟩
  simp only [List.forall_mem_cons, Insertion.Rereads]
  refine ⟨?_, by simp, by simp⟩
  rintro _ ⟨⟩
  rfl

/-- Two runs of a sheet between whose insertions the clock is set back by five seconds. -/
def setBack : List StoreRequest :=
  [⟨_, .createSheet ⟨"a"⟩ ⟨"p"⟩ "" []⟩,
    ⟨_, .insertRun 951782399 { sheet := ⟨"a"⟩, output := "1" }⟩,
    ⟨_, .insertRun 951782394 { sheet := ⟨"a"⟩, output := "2" }⟩]

theorem setBack_listed_differently :
    FreshIds setBack ∧
      (inMemory.listing setBack ⟨"a"⟩).map (·.map (·.id)) = .ok [2, 1] ∧
      (database.listing setBack ⟨"a"⟩).map (·.map (·.id)) = .ok [1, 2] ∧
      (databaseFile.listing setBack ⟨"a"⟩).map (·.map (·.id)) = .ok [1, 2] ∧
      ¬ database.NewestFirst setBack ⟨"a"⟩ := by
  have by_time : (database.listing setBack ⟨"a"⟩).map (·.map (·.id)) = .ok [1, 2] := rfl
  refine ⟨by decide, rfl, by_time, rfl, fun newest_first => ?_⟩
  have reversed : (database.listing setBack ⟨"a"⟩).map (·.map (·.id)) = .ok [2, 1] :=
    congrArg (·.map (·.map (·.id))) newest_first.listed
  rw [by_time] at reversed
  exact absurd reversed (by simp)

end Backend

end AgentWorkbench
