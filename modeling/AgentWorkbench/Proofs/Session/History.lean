import AgentWorkbench.Proofs.Session.Effects
import AgentWorkbench.Proofs.Session.Output

/-!
Histories of a session, as lists of effects. A quiet history neither saves a graph nor announces
one. A history that is not quiet has one save in it and at most one announcement, after the save if
that succeeded; before the save stands what justifies it.
-/
namespace AgentWorkbench

open OutputAccumulator

namespace SessionEffect

def saves : SessionEffect → Bool
  | called (.saved _ _ _) => true
  | _ => false

def announces : SessionEffect → Bool
  | sent _ (.graphReady _ _) => true
  | _ => false

def publishes (e : SessionEffect) : Bool := e.saves || e.announces

/-- What a session loaded. -/
def load? : SessionEffect → Option (SheetId × PlaygroundId × Except StorageError Sheet)
  | called (.loaded sheet playground result) => some (sheet, playground, result)
  | _ => none

def printed? : SessionEffect → Option (List Char)
  | sent (some .stdout) (.output text) => some text.toList
  | _ => none

/-- What the client was sent of the standard output of the process. -/
def printed (t : List SessionEffect) : List Char := (t.filterMap printed?).flatten

theorem printed_append (xs ys : List SessionEffect) :
    printed (xs ++ ys) = printed xs ++ printed ys := by
  simp [printed]

theorem silent_append {xs ys : List SessionEffect} (hx : printed xs = []) (hy : printed ys = []) :
    printed (xs ++ ys) = [] := by
  rw [printed_append, hx, hy]
  rfl

def Quiet (t : List SessionEffect) : Prop := ∀ e ∈ t, e.publishes = false

/-- The worker has not been contacted, as the session has not begun to upload. -/
def Uncontacted (t : List SessionEffect) : Prop := .entered .uploading ∉ t

theorem quiet_append {xs ys : List SessionEffect} : Quiet (xs ++ ys) ↔ Quiet xs ∧ Quiet ys :=
  List.forall_mem_append

theorem quiet_cons {e : SessionEffect} {t : List SessionEffect} :
    Quiet (e :: t) ↔ e.publishes = false ∧ Quiet t :=
  List.forall_mem_cons

theorem quiet_of_all {t : List SessionEffect} (h : t.all (fun e => !e.publishes) = true) :
    Quiet t := by
  intro e mem
  simpa using List.all_eq_true.mp h e mem

theorem Uncontacted.append {t more : List SessionEffect} (h : Uncontacted t)
    (more_uncontacted : Uncontacted more) : Uncontacted (t ++ more) := by
  rw [Uncontacted, List.mem_append, not_or]
  exact ⟨h, more_uncontacted⟩

theorem Quiet.not_mem {t : List SessionEffect} (h : Quiet t) {e : SessionEffect}
    (he : e.publishes = true) : e ∉ t := by
  intro mem
  rw [h e mem] at he
  contradiction

theorem Quiet.ne_of_publishes {t before after : List SessionEffect} {e : SessionEffect}
    (h : Quiet t) (he : e.publishes = true) : t ≠ before ++ e :: after := by
  rintro rfl
  exact absurd (List.mem_append_right _ List.mem_cons_self) (h.not_mem he)

theorem Quiet.filter_saves {t : List SessionEffect} (h : Quiet t) : t.filter saves = [] := by
  refine List.filter_eq_nil_iff.mpr fun e he saves => ?_
  have quiet := h e he
  rw [publishes, saves] at quiet
  contradiction

theorem Quiet.filter_announces {t : List SessionEffect} (h : Quiet t) :
    t.filter announces = [] := by
  refine List.filter_eq_nil_iff.mpr fun e he announces => ?_
  have quiet := h e he
  rw [publishes, announces, Bool.or_true] at quiet
  contradiction

/-- An effect that is not in the first part of a history is in the second. -/
theorem exists_of_append_eq {xs ys before after : List SessionEffect} {e : SessionEffect}
    (not_mem : e ∉ xs) (cut : xs ++ ys = before ++ e :: after) :
    ∃ mid, before = xs ++ mid ∧ ys = mid ++ e :: after := by
  obtain ⟨mid, rfl, rfl⟩ | ⟨mid, rfl, same⟩ := List.append_eq_append_iff.mp cut
  · exact ⟨mid, rfl, rfl⟩
  · cases mid with
    | nil => exact ⟨[], by simp, same.symm⟩
    | cons c mid =>
        obtain ⟨rfl, -⟩ := List.cons_eq_cons.mp same
        simp at not_mem

/-- A save, and the announcement of the graph if the save succeeded and the announcement was
made. -/
inductive Published (sheet : SheetId) (playground : PlaygroundId) (graph : PipelineGraph) :
    List SessionEffect → Prop where
  | saved (result : Except StorageError Unit) {rest : List SessionEffect} (quiet : Quiet rest) :
      Published sheet playground graph (.called (.saved sheet graph result) :: rest)
  | announced (reader : Option OutputStream) {between rest : List SessionEffect}
      (quiet_between : Quiet between) (quiet : Quiet rest) :
      Published sheet playground graph (.called (.saved sheet graph (.ok ())) ::
        (between ++ .sent reader (.graphReady sheet playground) :: rest))

section

variable {sheet : SheetId} {playground : PlaygroundId} {graph : PipelineGraph}
  {t before rest more : List SessionEffect}

theorem Published.append (h : Published sheet playground graph t) (quiet : Quiet more) :
    Published sheet playground graph (t ++ more) := by
  cases h with
  | saved result quiet_rest =>
      exact .saved result (quiet_append.mpr ⟨quiet_rest, quiet⟩)
  | announced reader quiet_between quiet_rest =>
      rw [List.cons_append, List.append_assoc, List.cons_append]
      exact .announced reader quiet_between (quiet_append.mpr ⟨quiet_rest, quiet⟩)

/-- A publication begins with its save and has no other. -/
theorem Published.exists_save (h : Published sheet playground graph t) :
    ∃ result rest, t = .called (.saved sheet graph result) :: rest ∧ rest.filter saves = [] := by
  cases h with
  | saved result quiet_rest => exact ⟨result, _, rfl, quiet_rest.filter_saves⟩
  | announced reader quiet_between quiet_rest =>
      refine ⟨.ok (), _, rfl, ?_⟩
      rw [List.filter_append, quiet_between.filter_saves, List.filter_cons_of_neg (by simp [saves]),
        quiet_rest.filter_saves, List.nil_append]

theorem Published.one_save (h : Published sheet playground graph t) (quiet : Quiet before) :
    ∃ result, (before ++ t).filter saves = [.called (.saved sheet graph result)] := by
  obtain ⟨result, rest, rfl, no_more⟩ := h.exists_save
  refine ⟨result, ?_⟩
  rw [List.filter_append, quiet.filter_saves, List.filter_cons_of_pos rfl, no_more,
    List.nil_append]

theorem Published.one_announcement (h : Published sheet playground graph t)
    (quiet : Quiet before) : ((before ++ t).filter announces).length ≤ 1 := by
  rw [List.filter_append, quiet.filter_announces, List.nil_append]
  cases h with
  | saved result quiet_rest =>
      rw [List.filter_cons_of_neg (by simp [announces]), quiet_rest.filter_announces]
      exact Nat.zero_le 1
  | announced reader quiet_between quiet_rest =>
      rw [List.filter_cons_of_neg (by simp [announces]), List.filter_append,
        quiet_between.filter_announces, List.filter_cons_of_pos rfl, quiet_rest.filter_announces]
      exact Nat.le_refl 1

/-- The save is the one of the graph, and stands where the publication begins. -/
theorem Published.save_eq (h : Published sheet playground graph t) (quiet : Quiet before)
    {front after : List SessionEffect} {sheet' : SheetId} {graph' : PipelineGraph}
    {result : Except StorageError Unit}
    (cut : before ++ t = front ++ .called (.saved sheet' graph' result) :: after) :
    front = before ∧ sheet' = sheet ∧ graph' = graph := by
  obtain ⟨mid, rfl, same⟩ := exists_of_append_eq (quiet.not_mem rfl) cut
  obtain ⟨result', rest, rfl, no_more⟩ := h.exists_save
  cases mid with
  | nil =>
      cases same
      exact ⟨List.append_nil _, rfl, rfl⟩
  | cons c mid =>
      rw [List.cons_append] at same
      obtain ⟨-, rfl⟩ := List.cons_eq_cons.mp same
      rw [List.filter_append, List.filter_cons_of_pos rfl] at no_more
      simp at no_more

/-- An announcement is one of the session's sheet, and follows a successful save. -/
theorem Published.announcement (h : Published sheet playground graph t) (quiet : Quiet before)
    {front after : List SessionEffect} {reader : Option OutputStream} {sheet' : SheetId}
    {playground' : PlaygroundId}
    (cut : before ++ t = front ++ .sent reader (.graphReady sheet' playground') :: after) :
    sheet' = sheet ∧ playground' = playground ∧
      ∃ between, front = before ++ .called (.saved sheet graph (.ok ())) :: between := by
  obtain ⟨mid, rfl, same⟩ := exists_of_append_eq (quiet.not_mem rfl) cut
  cases h with
  | @saved result rest quiet_rest =>
      have cut' : [called (.saved sheet graph result)] ++ rest = _ := same
      obtain ⟨mid, -, later⟩ := exists_of_append_eq (by simp) cut'
      exact absurd later (quiet_rest.ne_of_publishes rfl)
  | @announced reader' between rest quiet_between quiet_rest =>
      have cut' : [called (.saved sheet graph (.ok ()))] ++
          (between ++ .sent reader' (.graphReady sheet playground) :: rest) = _ := same
      obtain ⟨mid, rfl, later⟩ := exists_of_append_eq (by simp) cut'
      obtain ⟨mid, rfl, last⟩ := exists_of_append_eq (quiet_between.not_mem rfl) later
      cases mid with
      | nil =>
          cases last
          exact ⟨rfl, rfl, _, rfl⟩
      | cons c mid =>
          rw [List.cons_append] at last
          obtain ⟨-, rest_eq⟩ := List.cons_eq_cons.mp last
          exact absurd rest_eq (quiet_rest.ne_of_publishes rfl)

end

/-- The text with which the printed output first holds a graph frame was sent, and the frame gives
the graph. -/
def Completes (t : List SessionEffect) (graph : PipelineGraph) : Prop :=
  ∃ before text after, t = before ++ .sent (some .stdout) (.output text) :: after ∧
    extractFrame decodeGraph .graph (printed before) = none ∧
    extractFrame decodeGraph .graph (printed before ++ text.toList) = some graph

theorem Completes.append {t : List SessionEffect} {graph : PipelineGraph} (h : Completes t graph)
    (more : List SessionEffect) : Completes (t ++ more) graph := by
  obtain ⟨before, text, after, rfl, nothing, found⟩ := h
  exact ⟨before, text, after ++ more, by simp, nothing, found⟩

/-- The announcement that follows a save at once. -/
def announcement (sheet : SheetId) (playground : PlaygroundId) :
    Except StorageError Unit → List SessionEffect
  | .ok () => [.sent none (.graphReady sheet playground)]
  | .error _ => []

/-- The graph was published before the worker was contacted, and none after it. -/
def PublishedAhead (sheet : SheetId) (playground : PlaygroundId) (graph : PipelineGraph)
    (t : List SessionEffect) : Prop :=
  ∃ before result rest,
    t = before ++ .called (.saved sheet graph result) ::
      (announcement sheet playground result ++ rest) ∧
    Quiet before ∧ Uncontacted before ∧ Quiet rest

/-- The graph was published when the output of the process completed its frame. -/
def PublishedOnOutput (sheet : SheetId) (playground : PlaygroundId) (t : List SessionEffect) :
    Prop :=
  ∃ before publication graph, t = before ++ publication ∧ Quiet before ∧
    Completes before graph ∧ Published sheet playground graph publication

/-- The history of a session by its plan, once the worker may be contacted. -/
def Ran (sheet : SheetId) (playground : PlaygroundId) (plan : RunPlan) (t : List SessionEffect) :
    Prop :=
  match plan.staticGraph with
  | some graph => PublishedAhead sheet playground graph t
  | none => Quiet t ∨ (plan.language.extractsGraph = true ∧ PublishedOnOutput sheet playground t)

/-- The session loaded its sheet and made this plan of it. -/
def Planned (config : Config) (sheet : SheetId) (playground : PlaygroundId)
    (t : List SessionEffect) (plan : RunPlan) : Prop :=
  ∃ loaded, t.filterMap load? = [(sheet, playground, .ok loaded)] ∧
    RunPlan.prepare config loaded.files = .ok plan

/-- The session has no plan: it has not loaded its sheet, or cannot run it. -/
structure Unplanned (config : Config) (sheet : SheetId) (playground : PlaygroundId)
    (t : List SessionEffect) : Prop where
  quiet : Quiet t
  none_made : ∀ loaded, (sheet, playground, .ok loaded) ∈ t.filterMap load? →
    ∀ plan, RunPlan.prepare config loaded.files ≠ .ok plan

section

variable {config : Config} {sheet : SheetId} {playground : PlaygroundId} {graph : PipelineGraph}
  {plan : RunPlan} {t more : List SessionEffect}

theorem PublishedAhead.append (h : PublishedAhead sheet playground graph t) (quiet : Quiet more) :
    PublishedAhead sheet playground graph (t ++ more) := by
  obtain ⟨before, result, rest, rfl, quiet_before, uncontacted, quiet_rest⟩ := h
  exact ⟨before, result, rest ++ more, by simp, quiet_before, uncontacted,
    quiet_append.mpr ⟨quiet_rest, quiet⟩⟩

theorem PublishedAhead.exists_published (h : PublishedAhead sheet playground graph t) :
    ∃ before publication, t = before ++ publication ∧ Quiet before ∧
      Published sheet playground graph publication := by
  obtain ⟨before, result, rest, rfl, quiet_before, -, quiet_rest⟩ := h
  refine ⟨before, _, rfl, quiet_before, ?_⟩
  cases result with
  | error e => exact .saved (.error e) quiet_rest
  | ok =>
      have quiet_between : Quiet [] := quiet_of_all rfl
      exact .announced none quiet_between quiet_rest

theorem PublishedOnOutput.append (h : PublishedOnOutput sheet playground t) (quiet : Quiet more) :
    PublishedOnOutput sheet playground (t ++ more) := by
  obtain ⟨before, publication, graph, rfl, quiet_before, completes, published⟩ := h
  exact ⟨before, publication ++ more, graph, by simp, quiet_before, completes,
    published.append quiet⟩

theorem Ran.append (h : Ran sheet playground plan t) (quiet : Quiet more) :
    Ran sheet playground plan (t ++ more) := by
  rw [Ran] at h ⊢
  split at h
  · exact h.append quiet
  · obtain h | ⟨extracts, h⟩ := h
    · exact .inl (quiet_append.mpr ⟨h, quiet⟩)
    · exact .inr ⟨extracts, h.append quiet⟩

theorem mem_loads_iff {result : Except StorageError Sheet} :
    (sheet, playground, result) ∈ t.filterMap load? ↔
      .called (.loaded sheet playground result) ∈ t := by
  rw [List.mem_filterMap]
  constructor
  · rintro ⟨e, mem, same⟩
    cases e with
    | called call =>
        cases call with
        | loaded sheet' playground' result' =>
            cases same
            exact mem
        | saved _ _ _ | other => contradiction
    | sent _ _ | entered _ => contradiction
  · intro mem
    exact ⟨_, mem, rfl⟩

theorem Unplanned.append (h : Unplanned config sheet playground t)
    (no_load : more.filterMap load? = []) (quiet : Quiet more) :
    Unplanned config sheet playground (t ++ more) where
  quiet := quiet_append.mpr ⟨h.quiet, quiet⟩
  none_made loaded mem := by
    rw [List.filterMap_append, no_load, List.append_nil] at mem
    exact h.none_made loaded mem

theorem Planned.append (h : Planned config sheet playground t plan)
    (no_load : more.filterMap load? = []) : Planned config sheet playground (t ++ more) plan := by
  obtain ⟨loaded, loads, prepared⟩ := h
  exact ⟨loaded, by rw [List.filterMap_append, loads, no_load, List.append_nil], prepared⟩

end

end SessionEffect

/-- The language in which a sheet is run: that of its first file. -/
def Sheet.language? (sheet : Sheet) : Option Language :=
  sheet.files.head?.bind fun file => Language.parse? file.language

theorem find?_selectEntry {files : List SourceFile} {language : Language} {entry : SourceFile}
    (h : selectEntry files language = some entry) :
    files.find? (·.filename = entry.filename) = some entry := by
  obtain named | ⟨-, first⟩ := Option.or_eq_some_iff.mp h
  · have same : entry.filename = language.defaultEntry := by simpa using List.find?_some named
    rw [same]
    exact named
  · obtain ⟨rest, rfl⟩ := List.head?_eq_some_iff.mp first
    simp

theorem RunPlan.prepare_eq_ok_iff {config : Config} {sheet : Sheet} {plan : RunPlan} :
    RunPlan.prepare config sheet.files = .ok plan ↔
      ∃ language entry, sheet.language? = some language ∧
        selectEntry sheet.files language = some entry ∧
        plan = RunPlan.build config sheet.files language entry.filename := by
  rw [Sheet.language?]
  cases sheet.files with
  | nil => simp [RunPlan.prepare]
  | cons first rest =>
      rw [RunPlan.prepare]
      cases known : Language.parse? first.language with
      | none => simp [known]
      | some language =>
          cases chosen : selectEntry (first :: rest) language with
          | none => simp [known, chosen]
          | some entry => simp [known, chosen, eq_comm]

theorem RunPlan.prepare_of_language (config : Config) {sheet : Sheet} {language : Language}
    (h : sheet.language? = some language) :
    ∃ entry, selectEntry sheet.files language = some entry ∧
      RunPlan.prepare config sheet.files =
        .ok (RunPlan.build config sheet.files language entry.filename) := by
  obtain ⟨first, head, -⟩ := Option.bind_eq_some_iff.mp h
  have chosen : ∃ entry, selectEntry sheet.files language = some entry := by
    rw [selectEntry, head]
    cases sheet.files.find? (·.filename = language.defaultEntry) with
    | none => exact ⟨first, rfl⟩
    | some entry => exact ⟨entry, rfl⟩
  obtain ⟨entry, chosen⟩ := chosen
  exact ⟨entry, chosen, RunPlan.prepare_eq_ok_iff.mpr ⟨language, entry, h, chosen, rfl⟩⟩

theorem RunPlan.staticGraph_build {config : Config} {files : List SourceFile}
    {language : Language} {entry : SourceFile} (h : selectEntry files language = some entry) :
    (RunPlan.build config files language entry.filename).staticGraph =
      if language.extractsGraph ∧ config.graphMode = .static then
        some (Extraction.extract entry.code)
      else none := by
  rw [RunPlan.build, find?_selectEntry h]
  rfl

end AgentWorkbench
