import AgentWorkbench.Proofs.Store.Reached
import Mathlib.Data.List.Nodup

/-!
Playgrounds are apart. Two stores agree on a part of the playgrounds if they hold the same sheets in
it, with the same runs. What is read of a playground depends on no other, and what names a sheet of
a playground changes no other.
-/
namespace AgentWorkbench.Holdings

/-- The same sheets are held in a part of the playgrounds, in the same order, and their runs. -/
structure AgreeOn (part : PlaygroundId → Bool) (h h' : Holdings) : Prop where
  sheets : h.sheets.filter (part ·.playground) = h'.sheets.filter (part ·.playground)
  runs : ∀ k ∈ h.sheets, part k.playground = true → h.runs k.id = h'.runs k.id

/-- The same is held in a playground. -/
abbrev AgreeIn (playground : PlaygroundId) : Holdings → Holdings → Prop :=
  AgreeOn (decide <| · = playground)

/-- The same is held in all other playgrounds. -/
abbrev AgreeOutside (playground : PlaygroundId) : Holdings → Holdings → Prop :=
  AgreeOn (decide <| · ≠ playground)

/-- The sheet is one of the playground. -/
def owns (h : Holdings) (id : SheetId) (playground : PlaygroundId) : Bool :=
  (h.sheet? id playground).isSome

variable {part : PlaygroundId → Bool} {h h' : Holdings} {keeping keeping' : Keeping}
  {id : SheetId} {playground : PlaygroundId}

theorem AgreeOn.refl (part : PlaygroundId → Bool) (h : Holdings) : AgreeOn part h h :=
  ⟨rfl, fun _ _ _ => rfl⟩

section Frame

theorem owns_iff : h.owns id playground = true ↔
    ∃ k ∈ h.sheets, k.id = id ∧ k.playground = playground := by
  simp [owns, sheet?]

theorem owns_iff_mem :
    h.owns id playground = true ↔ (id, playground) ∈ h.sheets.map KeptSheet.owner := by
  rw [owns_iff, List.mem_map]
  simp only [KeptSheet.owner, Prod.mk.injEq]

theorem owns_of_getSheet {sheet : Sheet} (got : h.getSheet id playground = .ok sheet) :
    h.owns id playground = true := by
  rw [getSheet] at got
  split at got
  · next found => rw [owns, found]; rfl
  · cases got

theorem has_of_owns (owned : h.owns id playground = true) : h.has id = true := by
  obtain ⟨k, mem, same, -⟩ := owns_iff.mp owned
  exact has_iff.mpr ⟨k, mem, same⟩

/-- A sheet is in no playground but its own. -/
theorem Sound.playground_eq (sound : h.Sound) (owned : h.owns id playground = true) {k : KeptSheet}
    (mem : k ∈ h.sheets) (same : k.id = id) : k.playground = playground := by
  obtain ⟨k', mem', rfl, rfl⟩ := owns_iff.mp owned
  rw [List.inj_on_of_nodup_map sound.distinct mem mem' same]

theorem filter_modify {f : KeptSheet → KeptSheet} (same : ∀ k, (f k).owner = k.owner)
    (h : Holdings) (id : SheetId) :
    (h.modify id f).sheets.filter (part ·.playground) =
      (h.sheets.filter (part ·.playground)).map fun k => if k.id = id then f k else k := by
  rw [modify, List.filter_map]
  refine congrArg (List.map _) (List.filter_congr fun k _ => ?_)
  rw [Function.comp]
  split
  · exact congrArg (part ·.2) (same k)
  · rfl

theorem AgreeOn.modify (agree : AgreeOn part h h') {f : KeptSheet → KeptSheet}
    (same : ∀ k, (f k).owner = k.owner) (id : SheetId) :
    AgreeOn part (h.modify id f) (h'.modify id f) := by
  refine ⟨by rw [filter_modify same, filter_modify same, agree.sheets], fun k mem inside => ?_⟩
  obtain ⟨before, there, made⟩ := List.mem_map.mp mem
  have same_owner : k.owner = before.owner := by
    rw [← made]
    split
    · exact same before
    · rfl
  have same_id : k.id = before.id := congrArg Prod.fst same_owner
  have same_playground : k.playground = before.playground := congrArg Prod.snd same_owner
  rw [same_playground] at inside
  rw [same_id]
  exact agree.runs before there inside

theorem agreeOn_modify (outside : ∀ k ∈ h.sheets, k.id = id → part k.playground = false)
    {f : KeptSheet → KeptSheet} (same : ∀ k, (f k).owner = k.owner) :
    AgreeOn part h (h.modify id f) := by
  refine ⟨?_, fun _ _ _ => rfl⟩
  rw [filter_modify same]
  conv_lhs => rw [← List.map_id (h.sheets.filter _)]
  refine List.map_congr_left fun k mem => ?_
  obtain ⟨mem, inside⟩ := List.mem_filter.mp mem
  refine (if_neg fun here => ?_).symm
  rw [outside k mem here] at inside
  contradiction

theorem AgreeOn.append (agree : AgreeOn part h h') {k : KeptSheet}
    (runs : h.runs k.id = h'.runs k.id) :
    AgreeOn part { h with sheets := h.sheets ++ [k] } { h' with sheets := h'.sheets ++ [k] } := by
  refine ⟨by simp [agree.sheets], fun other mem inside => ?_⟩
  obtain mem | mem := List.mem_append.mp mem
  · exact agree.runs other mem inside
  · obtain rfl := List.mem_singleton.mp mem
    exact runs

theorem agreeOn_append {k : KeptSheet} (outside : part k.playground = false) :
    AgreeOn part h { h with sheets := h.sheets ++ [k] } :=
  ⟨by simp [outside], fun _ _ _ => rfl⟩

theorem agreeOn_addRun (keeping : Keeping) (now : Int) {run : RunRecord}
    (outside : ∀ k ∈ h.sheets, k.id = run.sheet → part k.playground = false) :
    AgreeOn part h (h.addRun keeping now run) := by
  refine ⟨rfl, fun k mem inside => ?_⟩
  have other : k.id ≠ run.sheet := by
    intro same
    rw [outside k mem same] at inside
    contradiction
  exact (Function.update_of_ne other _ _).symm

/-- What an operation names is in the playground. -/
def Names (h : Holdings) (playground : PlaygroundId) : {α : Type} → StoreOp α → Prop
  | _, .createSheet _ named _ _ | _, .getSheet _ named | _, .listSheets named
  | _, .replaceFiles _ named _ => named = playground
  | _, .saveGraph id _ | _, .listRuns id => h.owns id playground = true
  | _, .insertRun _ run => h.owns run.sheet playground = true

/-- What names a sheet of a playground changes no other. -/
theorem agreeOutside_apply (sound : h.Sound) {α : Type} {op : StoreOp α}
    (names : h.Names playground op) : AgreeOutside playground h (h.apply keeping op).2 := by
  have inside {id : SheetId} (owned : h.owns id playground = true) (k : KeptSheet)
      (mem : k ∈ h.sheets) (same : k.id = id) : decide (k.playground ≠ playground) = false := by
    simpa using sound.playground_eq owned mem same
  cases op with
  | createSheet id named title files =>
      obtain rfl : named = playground := names
      exact agreeOn_append (by simp)
  | getSheet _ _ | listSheets _ | listRuns _ => exact .refl _ h
  | replaceFiles id named files =>
      obtain rfl : named = playground := names
      rw [apply]
      split
      · next found => exact agreeOn_modify (inside found) fun _ => rfl
      · exact .refl _ h
  | saveGraph id graph =>
      rw [apply]
      split
      · exact agreeOn_modify (inside names) fun _ => rfl
      · exact .refl _ h
  | insertRun now run =>
      rw [apply]
      split
      · exact agreeOn_addRun keeping now (inside names)
      · exact .refl _ h

end Frame

section Reading

theorem sheet?_eq_find? (h : Holdings) (id : SheetId) (playground : PlaygroundId) :
    h.sheet? id playground =
      (h.sheets.filter (·.playground = playground)).find? (·.id = id) := by
  rw [sheet?, List.find?_filter]
  refine congrArg (List.find? · h.sheets) (funext fun k => ?_)
  simp [Bool.and_comm]

theorem AgreeOn.sheet?_eq (agree : AgreeIn playground h h') (id : SheetId) :
    h.sheet? id playground = h'.sheet? id playground := by
  rw [sheet?_eq_find?, sheet?_eq_find?, agree.sheets]

theorem AgreeOn.owns_eq (agree : AgreeIn playground h h') (id : SheetId) :
    h.owns id playground = h'.owns id playground := by
  rw [owns, owns, agree.sheet?_eq]

theorem AgreeOn.runs_eq (agree : AgreeIn playground h h') (owned : h.owns id playground = true) :
    h.runs id = h'.runs id := by
  obtain ⟨k, mem, rfl, inside⟩ := owns_iff.mp owned
  exact agree.runs k mem (decide_eq_true inside)

/-- What names a sheet of a playground is answered by what is held in the playground. -/
theorem AgreeOn.answer_eq (agree : AgreeIn playground h h') {α : Type} {op : StoreOp α}
    (names : h.Names playground op) (next : op.reading?.isSome → h.lastRun = h'.lastRun) :
    (h.apply keeping op).1 = (h'.apply keeping' op).1 := by
  have has {id : SheetId} (owned : h.owns id playground = true) :
      h.has id = true ∧ h'.has id = true :=
    ⟨has_of_owns owned, has_of_owns (agree.owns_eq id ▸ owned)⟩
  cases op with
  | createSheet _ _ _ _ => rfl
  | getSheet id named =>
      obtain rfl : named = playground := names
      rw [apply, apply, getSheet, getSheet, agree.sheet?_eq]
  | listSheets named =>
      obtain rfl : named = playground := names
      rw [apply, apply, listing, listing, agree.sheets]
  | replaceFiles id named files =>
      obtain rfl : named = playground := names
      rw [apply, apply, agree.sheet?_eq]
      split <;> rfl
  | saveGraph id graph => rw [apply, apply, if_pos (has names).1, if_pos (has names).2]
  | insertRun now run =>
      rw [apply, apply, if_pos (has names).1, if_pos (has names).2, next rfl]
  | listRuns id =>
      rw [apply, apply, listRuns, listRuns, if_pos (has names).1, if_pos (has names).2,
        agree.runs_eq names]

end Reading

end AgentWorkbench.Holdings
