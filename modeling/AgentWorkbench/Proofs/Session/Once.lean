import AgentWorkbench.Proofs.Session.History

/-!
At most one graph. What is known of the history of a session with a plan, or without one, says how
often and when it publishes a graph, and which.
-/
namespace AgentWorkbench.SessionEffect

/-- A session publishes at most one graph of its sheet: it saves at most one, and announces it at
most once, after saving it. A graph that the program prints is saved after the client was sent the
text that completes it. A graph that is extracted ahead is that of the entry file as it was loaded,
is published before the worker is contacted, and remains the only one. -/
structure GraphOnce (config : Config) (sheet : SheetId) (playground : PlaygroundId)
    (t : List SessionEffect) : Prop where
  one_save : (t.filter saves).length ≤ 1
  one_announcement : (t.filter announces).length ≤ 1
  saved : ∀ front sheet' graph result after,
    t = front ++ .called (.saved sheet' graph result) :: after →
      sheet' = sheet ∧ (config.graphMode = .runtime → Completes front graph) ∧
        ∃ loaded, .called (.loaded sheet playground (.ok loaded)) ∈ t ∧
          loaded.language? = some .python
  announced : ∀ front reader sheet' playground' after,
    t = front ++ .sent reader (.graphReady sheet' playground') :: after →
      sheet' = sheet ∧ playground' = playground ∧
        ∃ earlier graph between,
          front = earlier ++ .called (.saved sheet graph (.ok ())) :: between ∧
            (config.graphMode = .runtime → Completes earlier graph)
  ahead : config.graphMode = .static →
    ∀ loaded, .called (.loaded sheet playground (.ok loaded)) ∈ t →
      loaded.language? = some .python →
        ∃ entry, selectEntry loaded.files .python = some entry ∧
          (∀ sheet' graph result, .called (.saved sheet' graph result) ∈ t →
            graph = Extraction.extract entry.code) ∧
          ∀ front after, t = front ++ .entered .uploading :: after →
            Quiet after ∧ ∃ result,
              .called (.saved sheet (Extraction.extract entry.code) result) ∈ front ∧
                (result = .ok () → .sent none (.graphReady sheet playground) ∈ front)
  none_of_javascript : ∀ loaded, .called (.loaded sheet playground (.ok loaded)) ∈ t →
    loaded.language? = some .javascript → Quiet t

section

variable {config : Config} {sheet : SheetId} {playground : PlaygroundId} {plan : RunPlan}
  {t : List SessionEffect}

theorem Unplanned.graphOnce (h : Unplanned config sheet playground t) :
    GraphOnce config sheet playground t where
  one_save := by simp [h.quiet.filter_saves]
  one_announcement := by simp [h.quiet.filter_announces]
  saved front sheet' graph result after cut := absurd cut (h.quiet.ne_of_publishes rfl)
  announced front reader sheet' playground' after cut := absurd cut (h.quiet.ne_of_publishes rfl)
  ahead _ loaded mem python := by
    obtain ⟨entry, -, made⟩ := RunPlan.prepare_of_language config python
    exact absurd made (h.none_made loaded (mem_loads_iff.mpr mem) _)
  none_of_javascript _ _ _ := h.quiet

/-- A plan is that of the language of the sheet and its entry file. -/
theorem Planned.plan_eq (h : Planned config sheet playground t plan) {loaded : Sheet}
    {language : Language} (mem : .called (.loaded sheet playground (.ok loaded)) ∈ t)
    (known : loaded.language? = some language) :
    ∃ entry, selectEntry loaded.files language = some entry ∧ plan.language = language ∧
      plan.staticGraph = if language.extractsGraph ∧ config.graphMode = .static then
        some (Extraction.extract entry.code) else none := by
  obtain ⟨loaded', loads, made⟩ := h
  have mem := mem_loads_iff.mpr mem
  rw [loads, List.mem_singleton] at mem
  cases mem
  obtain ⟨entry, chosen, made'⟩ := RunPlan.prepare_of_language config known
  rw [made] at made'
  cases made'
  exact ⟨entry, chosen, rfl, RunPlan.staticGraph_build chosen⟩

theorem Planned.exists_loaded (h : Planned config sheet playground t plan) :
    ∃ loaded, .called (.loaded sheet playground (.ok loaded)) ∈ t ∧
      loaded.language? = some plan.language := by
  obtain ⟨loaded, loads, made⟩ := h
  obtain ⟨language, entry, known, -, rfl⟩ := RunPlan.prepare_eq_ok_iff.mp made
  have mem : (sheet, playground, Except.ok loaded) ∈ t.filterMap load? := by simp [loads]
  exact ⟨loaded, mem_loads_iff.mp mem, known⟩

/-- A quiet history, or one publication and what justifies it. -/
def Shape (sheet : SheetId) (playground : PlaygroundId) (plan : RunPlan)
    (t : List SessionEffect) : Prop :=
  Quiet t ∨ ∃ before publication graph, t = before ++ publication ∧ Quiet before ∧
    Published sheet playground graph publication ∧
      (plan.staticGraph = some graph ∨
        plan.staticGraph = none ∧ plan.language.extractsGraph = true ∧ Completes before graph)

theorem Ran.shape (h : Ran sheet playground plan t) : Shape sheet playground plan t := by
  rw [Ran] at h
  cases extracted : plan.staticGraph with
  | some graph =>
      rw [extracted] at h
      obtain ⟨before, publication, cut, quiet, published⟩ := h.exists_published
      exact .inr ⟨before, publication, graph, cut, quiet, published, .inl extracted⟩
  | none =>
      rw [extracted] at h
      obtain quiet | ⟨extracts, before, publication, graph, cut, quiet, completes, published⟩ := h
      · exact .inl quiet
      · exact .inr ⟨before, publication, graph, cut, quiet, published,
          .inr ⟨extracted, extracts, completes⟩⟩

theorem Planned.static_of_extracted (h : Planned config sheet playground t plan)
    {graph : PipelineGraph} (extracted : plan.staticGraph = some graph) :
    plan.language.extractsGraph = true ∧ config.graphMode = .static := by
  obtain ⟨loaded, mem, known⟩ := h.exists_loaded
  obtain ⟨entry, -, -, graph_eq⟩ := h.plan_eq mem known
  rw [extracted] at graph_eq
  split at graph_eq
  · next both => exact both
  · contradiction

theorem language_eq_python {language : Language} (h : language.extractsGraph = true) :
    language = .python := by
  cases language with
  | python => rfl
  | javascript => contradiction

theorem Planned.saved (h : Planned config sheet playground t plan)
    (shape : Shape sheet playground plan t) {front after : List SessionEffect} {sheet' : SheetId}
    {graph : PipelineGraph} {result : Except StorageError Unit}
    (cut : t = front ++ .called (.saved sheet' graph result) :: after) :
    sheet' = sheet ∧ (config.graphMode = .runtime → Completes front graph) ∧
      plan.language = .python := by
  obtain quiet | ⟨before, publication, graph', whole, quiet, published, source⟩ := shape
  · exact absurd cut (quiet.ne_of_publishes rfl)
  · rw [whole] at cut
    obtain ⟨rfl, rfl, rfl⟩ := published.save_eq quiet cut
    refine ⟨rfl, ?_, ?_⟩
    · intro runtime
      obtain extracted | ⟨-, -, completes⟩ := source
      · have static := (h.static_of_extracted extracted).2
        rw [runtime] at static
        contradiction
      · exact completes
    · obtain extracted | ⟨-, extracts, -⟩ := source
      · exact language_eq_python (h.static_of_extracted extracted).1
      · exact language_eq_python extracts

theorem Planned.announced (h : Planned config sheet playground t plan)
    (shape : Shape sheet playground plan t) {front after : List SessionEffect}
    {reader : Option OutputStream} {sheet' : SheetId} {playground' : PlaygroundId}
    (cut : t = front ++ .sent reader (.graphReady sheet' playground') :: after) :
    sheet' = sheet ∧ playground' = playground ∧
      ∃ earlier graph between, front = earlier ++ .called (.saved sheet graph (.ok ())) :: between ∧
        (config.graphMode = .runtime → Completes earlier graph) := by
  have whole_shape := shape
  obtain quiet | ⟨before, publication, graph, whole, quiet, published, -⟩ := shape
  · exact absurd cut (quiet.ne_of_publishes rfl)
  · have cut' := cut
    rw [whole] at cut'
    obtain ⟨rfl, rfl, between, rfl⟩ := published.announcement quiet cut'
    rw [List.append_assoc, List.cons_append] at cut
    exact ⟨rfl, rfl, before, graph, between, rfl, (h.saved whole_shape cut).2.1⟩

/-- When the worker is contacted, the graph has been published, and none is after it. -/
theorem PublishedAhead.contact {graph : PipelineGraph}
    (h : PublishedAhead sheet playground graph t) {front after : List SessionEffect}
    (cut : t = front ++ .entered .uploading :: after) :
    Quiet after ∧ ∃ result, .called (.saved sheet graph result) ∈ front ∧
      (result = .ok () → .sent none (.graphReady sheet playground) ∈ front) := by
  obtain ⟨before, result, rest, whole, -, uncontacted, quiet⟩ := h
  have parts : t = before ++ .called (.saved sheet graph result) ::
      announcement sheet playground result ++ rest := by
    rw [whole, List.append_assoc, List.cons_append]
  have not_yet : .entered .uploading ∉ before ++ .called (.saved sheet graph result) ::
      announcement sheet playground result := by
    intro mem
    obtain mem | mem := List.mem_append.mp mem
    · exact uncontacted mem
    · cases result <;> simp [announcement] at mem
  rw [parts] at cut
  obtain ⟨mid, rfl, rfl⟩ := exists_of_append_eq not_yet cut
  refine ⟨(quiet_cons.mp (quiet_append.mp quiet).2).2, result, by simp, ?_⟩
  rintro rfl
  simp [announcement]

theorem Planned.graphOnce (h : Planned config sheet playground t plan)
    (shape : Shape sheet playground plan t)
    (ahead : ∀ graph, plan.staticGraph = some graph →
      PublishedAhead sheet playground graph t ∨ Quiet t ∧ Uncontacted t) :
    GraphOnce config sheet playground t where
  one_save := by
    obtain quiet | ⟨before, publication, graph, rfl, quiet, published, -⟩ := shape
    · simp [quiet.filter_saves]
    · obtain ⟨result, one⟩ := published.one_save quiet
      simp [one]
  one_announcement := by
    obtain quiet | ⟨before, publication, graph, rfl, quiet, published, -⟩ := shape
    · simp [quiet.filter_announces]
    · exact published.one_announcement quiet
  saved front sheet' graph result after cut := by
    obtain ⟨same_sheet, completes, python⟩ := h.saved shape cut
    obtain ⟨loaded, mem, known⟩ := h.exists_loaded
    rw [python] at known
    exact ⟨same_sheet, completes, loaded, mem, known⟩
  announced front reader sheet' playground' after cut := h.announced shape cut
  ahead static loaded mem python := by
    obtain ⟨entry, chosen, -, graph_eq⟩ := h.plan_eq mem python
    rw [if_pos ⟨rfl, static⟩] at graph_eq
    refine ⟨entry, chosen, ?_, ?_⟩
    · intro sheet' graph result saved
      obtain quiet | ⟨before, publication, graph', whole, quiet, published, source⟩ := shape
      · exact absurd saved (quiet.not_mem rfl)
      · obtain ⟨front, after, cut⟩ := List.append_of_mem saved
        rw [whole] at cut
        obtain ⟨-, -, rfl⟩ := published.save_eq quiet cut
        obtain extracted | ⟨printing, -, -⟩ := source
        · rw [graph_eq] at extracted
          exact (Option.some.inj extracted).symm
        · rw [graph_eq] at printing
          contradiction
    · intro front after cut
      obtain published | ⟨-, uncontacted⟩ := ahead _ graph_eq
      · exact published.contact cut
      · exact absurd (by simp [cut]) uncontacted
  none_of_javascript loaded mem javascript := by
    obtain ⟨entry, -, language, graph_eq⟩ := h.plan_eq mem javascript
    obtain quiet | ⟨-, -, graph, -, -, -, extracted | ⟨-, extracts, -⟩⟩ := shape
    · exact quiet
    · have extracts := (h.static_of_extracted extracted).1
      rw [language] at extracts
      contradiction
    · rw [language] at extracts
      contradiction

end

end AgentWorkbench.SessionEffect
