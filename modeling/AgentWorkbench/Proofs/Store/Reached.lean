import AgentWorkbench.Proofs.Store.Bookkeeping
import AgentWorkbench.Server.Basic

/-!
The stores that operations make of an empty one, of either kind. What such a store holds: the sheets
in the order of their creation, each under an id of its own, and runs that are numbered in the order
in which they were added.
-/
namespace AgentWorkbench

/-- The sheet that an operation creates, and its playground. -/
def StoreOp.created? {α : Type} : StoreOp α → Option (SheetId × PlaygroundId)
  | createSheet id playground .. => some (id, playground)
  | _ => none

theorem StoreOp.map_fst_created? {α : Type} (op : StoreOp α) :
    op.created?.map Prod.fst = op.createdId? := by
  cases op <;> rfl

/-- A store after operations, one after the other. -/
def SheetStore.after {σ : Type} [SheetStore σ] (store : σ) : List StoreRequest → σ
  | [] => store
  | ⟨_, op⟩ :: rest => after (apply op store).2 rest

theorem SheetStore.after_append {σ : Type} [SheetStore σ] (store : σ)
    (past later : List StoreRequest) :
    after store (past ++ later) = after (after store past) later := by
  induction past generalizing store with
  | nil => rfl
  | cons request rest ih => exact ih _

/-- No two sheets are given the same id. -/
abbrev FreshIds (requests : List StoreRequest) : Prop :=
  (requests.filterMap (·.2.createdId?)).Nodup

/-- The last of operations that give fresh ids to sheets gives one that none before it has given. -/
theorem fresh_last {past : List StoreRequest} {α : Type} {op : StoreOp α}
    (fresh : FreshIds (past ++ [⟨α, op⟩])) :
    FreshIds past ∧
      ∀ id ∈ op.createdId?, id ∉ past.filterMap (·.2.createdId?) := by
  rw [FreshIds, List.filterMap_append, List.nodup_append] at fresh
  refine ⟨fresh.1, fun id created mem => fresh.2.2 id mem id ?_ rfl⟩
  exact List.mem_filterMap.mpr ⟨_, List.mem_singleton_self _, created⟩

namespace Keeping

theorem inMemory_places : inMemory.Places := fun _ runs => ⟨[], runs, rfl, rfl⟩

theorem relational_places : relational.Places := fun run runs =>
  Database.exists_insertSorted KeptRun.isNewer run runs

end Keeping

def KeptSheet.owner (k : KeptSheet) : SheetId × PlaygroundId := (k.id, k.playground)

namespace Holdings

/-- No two sheets have the same id, runs belong to sheets that are there, and none has a larger id
than the last that was given. -/
structure Sound (h : Holdings) : Prop where
  distinct : (h.sheets.map (·.id)).Nodup
  numbered : ∀ id, ∀ run ∈ h.runs id, run.id ≤ h.lastRun
  owned : ∀ id, h.has id = false → h.runs id = []

section

variable {h : Holdings} {keeping : Keeping}

theorem has_iff {id : SheetId} : h.has id = true ↔ ∃ k ∈ h.sheets, k.id = id := by
  simp [has]

theorem has_eq_false_iff {id : SheetId} : h.has id = false ↔ ∀ k ∈ h.sheets, k.id ≠ id := by
  simp [has]

theorem owners_modify {f : KeptSheet → KeptSheet} (same : ∀ k, (f k).owner = k.owner)
    (id : SheetId) :
    (h.modify id f).sheets.map KeptSheet.owner = h.sheets.map KeptSheet.owner := by
  rw [modify, List.map_map]
  refine List.map_congr_left fun k _ => ?_
  rw [Function.comp]
  split
  · exact same k
  · rfl

theorem map_id_eq (h : Holdings) :
    h.sheets.map (·.id) = (h.sheets.map KeptSheet.owner).map Prod.fst := by
  rw [List.map_map]
  rfl

theorem has_eq_of_owners {h' : Holdings}
    (same : h'.sheets.map KeptSheet.owner = h.sheets.map KeptSheet.owner) (id : SheetId) :
    h'.has id = h.has id := by
  have any (h : Holdings) : h.has id = (h.sheets.map KeptSheet.owner).any (·.1 = id) := by
    rw [has, List.any_map]
    rfl
  rw [any h, any h', same]

/-- Sheets come in the order of their creation, in the playgrounds they were created in. -/
theorem owners_apply {α : Type} (keeping : Keeping) (op : StoreOp α) (h : Holdings) :
    (h.apply keeping op).2.sheets.map KeptSheet.owner =
      h.sheets.map KeptSheet.owner ++ op.created?.toList := by
  cases op with
  | createSheet id playground title files => simp [apply, StoreOp.created?, KeptSheet.owner]
  | getSheet _ _ | listSheets _ | listRuns _ => simp [apply, StoreOp.created?]
  | replaceFiles id playground files =>
      change _ = h.sheets.map KeptSheet.owner ++ []
      rw [apply, List.append_nil]
      split
      · refine owners_modify ?_ id
        exact fun _ => rfl
      · rfl
  | saveGraph id graph =>
      change _ = h.sheets.map KeptSheet.owner ++ []
      rw [apply, List.append_nil]
      split
      · refine owners_modify ?_ id
        exact fun _ => rfl
      · rfl
  | insertRun now run =>
      change _ = h.sheets.map KeptSheet.owner ++ []
      rw [apply, List.append_nil]
      split <;> rfl

/-- A new run is one more among those of its sheet. -/
theorem addRun_runs (places : keeping.Places) (h : Holdings) (now : Int) (run : RunRecord) :
    ∃ newer older, h.runs run.sheet = newer ++ older ∧
      (h.addRun keeping now run).runs = Function.update h.runs run.sheet
        (newer ++ keeping.newRun (h.lastRun + 1) now run :: older) := by
  obtain ⟨newer, older, cut, placed⟩ :=
    places (keeping.newRun (h.lastRun + 1) now run) (h.runs run.sheet)
  exact ⟨newer, older, cut, by rw [addRun, placed]⟩

theorem Sound.addRun (sound : h.Sound) (places : keeping.Places) (now : Int) {run : RunRecord}
    (has : h.has run.sheet = true) : (h.addRun keeping now run).Sound where
  distinct := sound.distinct
  numbered id stored mem := by
    obtain ⟨newer, older, cut, runs⟩ := addRun_runs places h now run
    rw [runs] at mem
    by_cases here : id = run.sheet
    · subst here
      rw [Function.update_self] at mem
      obtain mem | rfl | mem : stored ∈ newer ∨ stored = _ ∨ stored ∈ older := by simpa using mem
      · exact (sound.numbered _ stored (cut ▸ List.mem_append_left _ mem)).trans (Nat.le_succ _)
      · exact Nat.le_refl _
      · exact (sound.numbered _ stored (cut ▸ List.mem_append_right _ mem)).trans (Nat.le_succ _)
    · rw [Function.update_of_ne here] at mem
      exact (sound.numbered id stored mem).trans (Nat.le_succ _)
  owned id absent := by
    have other : id ≠ run.sheet := by
      rintro rfl
      exact Bool.noConfusion (absent.symm.trans has)
    exact (Function.update_of_ne other _ _).trans (sound.owned id absent)

theorem Sound.modify (sound : h.Sound) {f : KeptSheet → KeptSheet}
    (same : ∀ k, (f k).owner = k.owner) (id : SheetId) : (h.modify id f).Sound where
  distinct := by
    rw [map_id_eq, owners_modify same, ← map_id_eq]
    exact sound.distinct
  numbered := sound.numbered
  owned other absent :=
    sound.owned other ((has_eq_of_owners (owners_modify same id) other).symm.trans absent)

theorem Sound.append (sound : h.Sound) {k : KeptSheet} (fresh : h.has k.id = false) :
    ({ h with sheets := h.sheets ++ [k] } : Holdings).Sound where
  distinct := by
    rw [List.map_append, List.nodup_append]
    refine ⟨sound.distinct, by simp, fun other mem new new_mem same => ?_⟩
    obtain ⟨k', there, rfl⟩ := List.mem_map.mp mem
    obtain rfl := List.mem_singleton.mp new_mem
    exact has_eq_false_iff.mp fresh k' there same
  numbered := sound.numbered
  owned other gone := by
    rw [has, List.any_append, Bool.or_eq_false_iff] at gone
    exact sound.owned other gone.1

/-- Every operation keeps the holdings sound if new sheets get fresh ids. -/
theorem Sound.apply (sound : h.Sound) (places : keeping.Places) {α : Type} {op : StoreOp α}
    (fresh : ∀ id ∈ op.createdId?, h.has id = false) : (h.apply keeping op).2.Sound := by
  cases op with
  | createSheet id playground title files => exact sound.append (fresh id rfl)
  | getSheet _ _ | listSheets _ | listRuns _ => exact sound
  | replaceFiles id playground files =>
      rw [Holdings.apply]
      split
      · refine sound.modify ?_ id
        exact fun _ => rfl
      · exact sound
  | saveGraph id graph =>
      rw [Holdings.apply]
      split
      · refine sound.modify ?_ id
        exact fun _ => rfl
      · exact sound
  | insertRun now run =>
      rw [Holdings.apply]
      split
      · next has => exact sound.addRun places now has
      · exact sound

/-- What a store holds after operations that gave each sheet a fresh id. -/
structure After (h : Holdings) (past : List StoreRequest) : Prop where
  sound : h.Sound
  owners : h.sheets.map KeptSheet.owner = past.filterMap (·.2.created?)

theorem After.ids {past : List StoreRequest} (held : h.After past) :
    h.sheets.map (·.id) = past.filterMap (·.2.createdId?) := by
  rw [h.map_id_eq, held.owners, List.map_filterMap]
  simp only [StoreOp.map_fst_created?]

/-- An id that no operation has given to a sheet is fresh. -/
theorem After.has_eq_false {past : List StoreRequest} (held : h.After past) {id : SheetId}
    (unused : id ∉ past.filterMap (·.2.createdId?)) : h.has id = false := by
  rw [← held.ids] at unused
  exact has_eq_false_iff.mpr fun k mem same => unused (List.mem_map.mpr ⟨k, mem, same⟩)

theorem After.apply {past : List StoreRequest} (held : h.After past) (places : keeping.Places)
    {α : Type} {op : StoreOp α} (fresh : ∀ id ∈ op.createdId?, h.has id = false) :
    (h.apply keeping op).2.After (past ++ [⟨α, op⟩]) where
  sound := held.sound.apply places fresh
  owners := by
    rw [owners_apply, held.owners, List.filterMap_append]
    cases created : op.created? <;> simp [created]

end

end Holdings

namespace AnyStore

def holdings : AnyStore → Holdings
  | inMemory store => store.holdings
  | relational db => db.holdings

def keeping : AnyStore → Keeping
  | inMemory _ => .inMemory
  | relational _ => .relational

theorem keeping_places (s : AnyStore) : s.keeping.Places := by
  cases s with
  | inMemory store => exact Keeping.inMemory_places
  | relational db => exact Keeping.relational_places

theorem keeping_apply {α : Type} (op : StoreOp α) (s : AnyStore) :
    (SheetStore.apply op s).2.keeping = s.keeping := by
  cases s <;> rfl

/-- What an operation answers and leaves can be told from what the store holds. -/
theorem apply_holdings {s : AnyStore} (sound : s.holdings.Sound) {α : Type} {op : StoreOp α}
    (fresh : ∀ id ∈ op.createdId?, s.holdings.has id = false) :
    ((SheetStore.apply op s).1, (SheetStore.apply op s).2.holdings) =
      s.holdings.apply s.keeping op := by
  cases s with
  | inMemory store =>
      have distinct : (store.sheets.map (·.id)).Nodup := by
        simpa [holdings, InMemoryStore.holdings, Function.comp_def, InMemoryStore.kept] using
          sound.distinct
      exact InMemoryStore.apply_holdings distinct op
  | relational db =>
      refine Database.apply_holdings fun id created row mem => ?_
      have absent := fresh id created
      rw [holdings, Database.has_holdings, List.any_eq_false] at absent
      simpa using absent row mem

section

variable {s : AnyStore} (sound : s.holdings.Sound) {α : Type} {op : StoreOp α}
  (creates_none : op.createdId? = none)

include sound creates_none

theorem answer_eq_holdings :
    (SheetStore.apply op s).1 = (s.holdings.apply s.keeping op).1 :=
  congrArg Prod.fst (apply_holdings sound (by simp [creates_none]))

theorem holdings_apply :
    (SheetStore.apply op s).2.holdings = (s.holdings.apply s.keeping op).2 :=
  congrArg Prod.snd (apply_holdings sound (by simp [creates_none]))

end

theorem apply_saveGraph {s : AnyStore} (sound : s.holdings.Sound) {id : SheetId}
    (has : s.holdings.has id = true) (graph : PipelineGraph) :
    (SheetStore.apply (.saveGraph id graph) s).1 = .ok () ∧
      (SheetStore.apply (.saveGraph id graph) s).2.holdings =
        s.holdings.modify id fun k => { k with graph := s.keeping.graph graph } := by
  rw [answer_eq_holdings sound rfl, holdings_apply sound rfl, Holdings.apply, if_pos has]
  exact ⟨rfl, rfl⟩

theorem apply_insertRun {s : AnyStore} (sound : s.holdings.Sound) {run : RunRecord}
    (has : s.holdings.has run.sheet = true) (now : Int) :
    (SheetStore.apply (.insertRun now run) s).1 = .ok (s.holdings.lastRun + 1) ∧
      (SheetStore.apply (.insertRun now run) s).2.holdings =
        s.holdings.addRun s.keeping now run := by
  rw [answer_eq_holdings sound rfl, holdings_apply sound rfl, Holdings.apply, if_pos has]
  exact ⟨rfl, rfl⟩

def held (s : AnyStore) : HeldStore where
  keeping := s.keeping
  holdings := s.holdings

/-- A store does what the store does that is no more than what it holds. -/
theorem apply_held {s : AnyStore} (sound : s.holdings.Sound) {α : Type} {op : StoreOp α}
    (fresh : ∀ id ∈ op.createdId?, s.holdings.has id = false) :
    ((SheetStore.apply op s).1, (SheetStore.apply op s).2.held) = SheetStore.apply op s.held := by
  obtain ⟨answer, left⟩ := Prod.ext_iff.mp (apply_holdings sound fresh)
  exact Prod.ext answer (congrArg₂ HeldStore.mk (keeping_apply op s) left)

end AnyStore

namespace Backend

def keeping : Backend → Keeping
  | inMemory => .inMemory
  | database | databaseFile => .relational

/-- The store that these operations make of an empty one. -/
def storeAfter (backend : Backend) (past : List StoreRequest) : AnyStore :=
  SheetStore.after backend.emptyStore past

theorem storeAfter_append (backend : Backend) (past : List StoreRequest) {α : Type}
    (op : StoreOp α) :
    backend.storeAfter (past ++ [⟨α, op⟩]) = (SheetStore.apply op (backend.storeAfter past)).2 := by
  rw [storeAfter, SheetStore.after_append]
  rfl

theorem keeping_storeAfter (backend : Backend) (past : List StoreRequest) :
    (backend.storeAfter past).keeping = backend.keeping := by
  induction past using List.reverseRecOn with
  | nil => cases backend <;> rfl
  | append_singleton past request ih => rw [storeAfter_append, AnyStore.keeping_apply, ih]

theorem holdings_emptyStore (backend : Backend) : backend.emptyStore.holdings = {} := by
  cases backend <;> rfl

theorem holdings_storeAfter (backend : Backend) {past : List StoreRequest}
    (fresh : FreshIds past) : (backend.storeAfter past).holdings.After past := by
  induction past using List.reverseRecOn with
  | nil =>
      rw [show backend.storeAfter [] = backend.emptyStore from rfl, holdings_emptyStore]
      exact ⟨⟨List.nodup_nil, by simp, fun _ _ => rfl⟩, rfl⟩
  | append_singleton past request ih =>
      obtain ⟨α, op⟩ := request
      obtain ⟨fresh, unused⟩ := fresh_last fresh
      have before := ih fresh
      have unused (id : SheetId) (created : id ∈ op.createdId?) :
          (backend.storeAfter past).holdings.has id = false :=
        before.has_eq_false (unused id created)
      have step : (SheetStore.apply op (backend.storeAfter past)).2.holdings = _ :=
        congrArg Prod.snd (AnyStore.apply_holdings before.sound unused)
      rw [storeAfter_append, step]
      exact before.apply (AnyStore.keeping_places _) unused

end Backend

end AgentWorkbench
