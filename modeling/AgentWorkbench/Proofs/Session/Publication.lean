import AgentWorkbench.Proofs.Session.Draining
import AgentWorkbench.Proofs.Session.Once
import AgentWorkbench.Store.InMemory

/-!
When a session publishes its graph. By its stage a session knows what it has published and what it
still may: ahead of the run if the graph is extracted then, and while the output is drained if the
program prints it. Every move of a session keeps this, in whatever order the two readers act.
-/
namespace AgentWorkbench

open SessionEffect OutputAccumulator

namespace Session

/-- The effects of a session that has not loaded its sheet. -/
structure Untouched (t : List SessionEffect) : Prop where
  no_load : t.filterMap load? = []
  quiet : Quiet t
  uncontacted : Uncontacted t
  silent : printed t = []

/-- What a session has done and may still do, by its stage. -/
def Progress (config : Config) (sheet : SheetId) (playground : PlaygroundId)
    (t : List SessionEffect) : Stage → Prop
  | .opening | .loading => Untouched t
  | .publishing plan graph =>
      Planned config sheet playground t plan ∧ plan.staticGraph = some graph ∧ Quiet t ∧
        Uncontacted t ∧ printed t = []
  | .uploading plan | .launching plan =>
      Planned config sheet playground t plan ∧ Ran sheet playground plan t ∧
        (plan.staticGraph = none → Quiet t) ∧ printed t = []
  | .draining d =>
      ∃ plan, Planned config sheet playground t plan ∧ OnlyForwards d.stderr.pending ∧
        Publishing sheet playground plan t d.output d.stdout.pending
  | .recording _ _ | .finished _ =>
      Unplanned config sheet playground t ∨
        ∃ plan, Planned config sheet playground t plan ∧ Ran sheet playground plan t

section

variable {config : Config} {sheet : SheetId} {playground : PlaygroundId} {plan : RunPlan}
  {t more : List SessionEffect} {d : Drain} {rest : List ReaderAction}

theorem Untouched.load (h : Untouched t) {result : Except StorageError Sheet}
    (no_load : more.filterMap load? = []) :
    (t ++ .called (.loaded sheet playground result) :: more).filterMap load? =
      [(sheet, playground, result)] := by
  have first : load? (.called (.loaded sheet playground result)) =
      some (sheet, playground, result) := rfl
  rw [List.filterMap_append, h.no_load, List.nil_append, List.filterMap_cons_some first, no_load]

/-- A sheet that could not be loaded or planned ends the session. -/
theorem Untouched.unplanned (h : Untouched t) {result : Except StorageError Sheet}
    (no_plan : ∀ loaded, result = .ok loaded →
      ∀ plan, RunPlan.prepare config loaded.files ≠ .ok plan) (text : String) :
    Unplanned config sheet playground
      (t ++ [.called (.loaded sheet playground result), .sent none (.output text),
        .entered .failed]) where
  quiet := quiet_append.mpr ⟨h.quiet, quiet_of_all rfl⟩
  none_made loaded mem := by
    rw [h.load rfl, List.mem_singleton] at mem
    cases mem
    exact no_plan loaded rfl

theorem Untouched.planned (h : Untouched t) {loaded : Sheet}
    (planned : RunPlan.prepare config loaded.files = .ok plan)
    (no_load : more.filterMap load? = []) :
    Planned config sheet playground
      (t ++ .called (.loaded sheet playground (.ok loaded)) :: more) plan :=
  ⟨loaded, h.load no_load, planned⟩

/-- A graph that was extracted before the run is saved, and announced if that worked. -/
theorem progress_publish {graph : PipelineGraph} (result : Except StorageError Unit)
    (h : Progress config sheet playground t (.publishing plan graph)) :
    Progress config sheet playground
      (t ++ .called (.saved sheet graph result) ::
        (announcement sheet playground result ++ [.entered .uploading]))
      (.uploading plan) := by
  obtain ⟨planned, extracted, quiet, uncontacted, silent⟩ := h
  refine ⟨planned.append (by cases result <;> rfl), ?_, ?_,
    silent_append silent (by cases result <;> rfl)⟩
  · rw [Ran, extracted]
    exact ⟨t, result, [.entered .uploading], rfl, quiet, uncontacted, quiet_of_all rfl⟩
  · rw [extracted]
    simp

/-- The worker fails, or the session goes on towards the run. -/
theorem ran_append (h : Planned config sheet playground t plan ∧ Ran sheet playground plan t ∧
      (plan.staticGraph = none → Quiet t) ∧ printed t = [])
    (no_load : more.filterMap load? = []) (quiet : Quiet more) (silent : printed more = []) :
    Planned config sheet playground (t ++ more) plan ∧ Ran sheet playground plan (t ++ more) ∧
      (plan.staticGraph = none → Quiet (t ++ more)) ∧ printed (t ++ more) = [] := by
  obtain ⟨planned, ran, quiet_t, silent_t⟩ := h
  refine ⟨planned.append no_load, ran.append quiet, ?_, silent_append silent_t silent⟩
  intro printing
  exact quiet_append.mpr ⟨quiet_t printing, quiet⟩

theorem publishing_accumulator (ran : Ran sheet playground plan t)
    (quiet : plan.staticGraph = none → Quiet t) (silent : printed t = []) :
    Publishing sheet playground plan t (accumulator plan) [] := by
  have tame : Tame [] := by simp [Tame]
  cases extracted : plan.staticGraph with
  | some graph =>
      refine .settled ran (.inl ?_) tame
      simp [accumulator, extracted, markGraphEmitted]
  | none =>
      by_cases extracts : plan.language.extractsGraph = true
      · have fresh : accumulator plan = {} := by simp [accumulator, extracted, extracts]
        rw [fresh]
        exact .watching extracted extracts (quiet extracted) .fresh (.idle silent)
      · refine .settled ran (.inr ?_) tame
        simp [accumulator, extracted, extracts, withoutGraph]

theorem progress_read {r : ReaderTask} (stream : OutputStream)
    (took : r.pending = (d.reader stream).pending ∨ (d.reader stream).pending = [] ∧
      ∃ text, r.pending = ReaderTask.deliveries stream text)
    (h : Progress config sheet playground t (.draining d)) :
    Progress config sheet playground t (.draining (d.setReader stream r)) := by
  obtain ⟨plan, planned, stderr, publishing⟩ := h
  refine ⟨plan, planned, ?_⟩
  cases stream with
  | stdout =>
      refine ⟨stderr, ?_⟩
      show Publishing sheet playground plan t d.output r.pending
      obtain same | ⟨idle, text, next⟩ := took
      · rw [same]
        exact publishing
      · rw [next]
        rw [Drain.reader] at idle
        rw [idle] at publishing
        exact publishing.take text
  | stderr =>
      refine ⟨?_, publishing⟩
      show OnlyForwards r.pending
      obtain same | ⟨-, text, next⟩ := took
      · rw [same]
        exact stderr
      · rw [next]
        exact onlyForwards_deliveries text

theorem progress_forward {stream : OutputStream} {text : List Char}
    (next : (d.reader stream).pending = .forward text :: rest)
    (h : Progress config sheet playground t (.draining d)) :
    Progress config sheet playground
      (t ++ [.sent (some stream) (.output (String.ofList text))])
      (.draining (d.setPending stream rest)) := by
  obtain ⟨plan, planned, stderr, publishing⟩ := h
  refine ⟨plan, planned.append rfl, ?_⟩
  cases stream with
  | stdout =>
      rw [Drain.reader] at next
      rw [next] at publishing
      exact ⟨stderr, publishing.forward⟩
  | stderr =>
      rw [Drain.reader] at next
      rw [next] at stderr
      refine ⟨?_, publishing.append (quiet_output _ _) rfl⟩
      exact fun action mem => stderr action (List.mem_cons_of_mem _ mem)

/-- Only the reader of the standard output has something other to do than to forward. -/
theorem Progress.taking {stream : OutputStream} {action : ReaderAction}
    (h : Progress config sheet playground t (.draining d))
    (next : (d.reader stream).pending = action :: rest) (other : ∀ text, action ≠ .forward text) :
    stream = .stdout ∧ ∃ plan, Planned config sheet playground t plan ∧
      OnlyForwards d.stderr.pending ∧
      Publishing sheet playground plan t d.output (action :: rest) := by
  obtain ⟨plan, planned, stderr, publishing⟩ := h
  cases stream with
  | stdout =>
      rw [Drain.reader] at next
      rw [next] at publishing
      exact ⟨rfl, plan, planned, stderr, publishing⟩
  | stderr =>
      rw [Drain.reader] at next
      rw [next] at stderr
      obtain ⟨text, same⟩ := stderr action List.mem_cons_self
      exact absurd same (other text)

end

/-- Every move of a session keeps what is known at its stage. -/
theorem progress_move {config : Config} {sheet : SheetId} {playground : PlaygroundId}
    {t effects : List SessionEffect} {stage stage' : Stage}
    (move : Move config sheet playground stage effects stage')
    (h : Progress config sheet playground t stage) :
    Progress config sheet playground (t ++ effects) stage' := by
  cases move with
  | stay => simpa using h
  | opened =>
      obtain ⟨no_load, quiet, uncontacted, silent⟩ := h
      refine ⟨?_, ?_, ?_, ?_⟩
      · rw [List.filterMap_append, no_load]
        rfl
      · exact quiet_append.mpr ⟨quiet, quiet_of_all rfl⟩
      · exact uncontacted.append (by simp [Uncontacted])
      · exact silent_append silent rfl
  | unloaded error text result =>
      exact .inl (Untouched.unplanned h (by simp) text)
  | unplanned bad text result =>
      refine .inl (Untouched.unplanned h ?_ text)
      intro loaded same plan
      cases same
      rw [bad]
      simp
  | extracted planned before_run =>
      refine ⟨Untouched.planned h planned rfl, before_run, ?_, ?_, ?_⟩
      · exact quiet_append.mpr ⟨h.quiet, quiet_of_all rfl⟩
      · exact h.uncontacted.append (by simp [Uncontacted])
      · exact silent_append h.silent rfl
  | @planned loaded plan planned later =>
      have quiet : Quiet (t ++ [.called (.loaded sheet playground (.ok loaded)),
          .entered .uploading]) :=
        quiet_append.mpr ⟨h.quiet, quiet_of_all rfl⟩
      refine ⟨Untouched.planned h planned rfl, ran_of_quiet later quiet, fun _ => quiet,
        silent_append h.silent rfl⟩
  | published plan graph => exact progress_publish (.ok ()) h
  | unpublished plan graph error => exact progress_publish (.error error) h
  | uploaded plan =>
      exact ran_append h rfl (quiet_of_all rfl) rfl
  | notUploaded plan text result | notLaunched plan text result =>
      have quiet : Quiet [.sent none (.output text), .entered .failed] := quiet_of_all rfl
      obtain ⟨planned, ran, -, -⟩ := ran_append h rfl quiet rfl
      exact .inr ⟨plan, planned, ran⟩
  | launched plan =>
      have no_graph : Quiet [.entered .draining] := quiet_of_all rfl
      obtain ⟨planned, ran, quiet, silent⟩ := ran_append h rfl no_graph rfl
      exact ⟨plan, planned, by simp [OnlyForwards], publishing_accumulator ran quiet silent⟩
  | took d stream octets =>
      rw [List.append_nil]
      exact progress_read stream (pending_of_read stream _ octets) h
  | closed d stream =>
      rw [List.append_nil]
      exact progress_read stream (pending_of_close stream _) h
  | exited d exit =>
      rw [List.append_nil]
      exact h
  | forwarded next => exact progress_forward next h
  | collected next =>
      obtain ⟨rfl, plan, planned, stderr, publishing⟩ := h.taking next (by simp)
      rw [List.append_nil]
      exact ⟨plan, planned, stderr, publishing.collect⟩
  | saved next =>
      obtain ⟨rfl, plan, planned, stderr, publishing⟩ := h.taking next (by simp)
      exact ⟨plan, planned.append rfl, stderr, publishing.save⟩
  | notSaved next error =>
      obtain ⟨rfl, plan, planned, stderr, publishing⟩ := h.taking next (by simp)
      exact ⟨plan, planned.append rfl, stderr, publishing.notSave error⟩
  | announced next =>
      obtain ⟨rfl, plan, planned, stderr, publishing⟩ := h.taking next (by simp)
      exact ⟨plan, planned.append rfl, stderr, publishing.announce _⟩
  | wrappedUp d text record graphEmitted =>
      obtain ⟨plan, planned, -, publishing⟩ := h
      exact .inr ⟨plan, planned.append rfl, publishing.ran.append (quiet_output _ _)⟩
  | recorded record graphEmitted result =>
      have quiet : Quiet [.called .other, .entered .completed] := quiet_of_all rfl
      obtain unplanned | ⟨plan, planned, ran⟩ := h
      · exact .inl (unplanned.append rfl quiet)
      · exact .inr ⟨plan, planned.append rfl, ran.append quiet⟩

theorem Progress.graphOnce {config : Config} {sheet : SheetId} {playground : PlaygroundId}
    {t : List SessionEffect} {stage : Stage} (h : Progress config sheet playground t stage) :
    GraphOnce config sheet playground t := by
  have of_ran {plan : RunPlan} (planned : Planned config sheet playground t plan)
      (ran : Ran sheet playground plan t) : GraphOnce config sheet playground t := by
    refine planned.graphOnce ran.shape ?_
    intro graph extracted
    rw [Ran, extracted] at ran
    exact .inl ran
  cases stage with
  | opening | loading =>
      refine Unplanned.graphOnce ⟨h.quiet, ?_⟩
      intro loaded mem
      rw [h.no_load] at mem
      contradiction
  | publishing plan graph =>
      obtain ⟨planned, -, quiet, uncontacted, -⟩ := h
      exact planned.graphOnce (.inl quiet) fun _ _ => .inr ⟨quiet, uncontacted⟩
  | uploading plan | launching plan =>
      obtain ⟨planned, ran, -, -⟩ := h
      exact of_ran planned ran
  | draining d =>
      obtain ⟨plan, planned, -, publishing⟩ := h
      exact of_ran planned publishing.ran
  | recording record graphEmitted | finished result =>
      obtain unplanned | ⟨plan, planned, ran⟩ := h
      · exact unplanned.graphOnce
      · exact of_ran planned ran

/-- Whatever the process prints, however its output arrives and in whatever order the readers act, a
session publishes at most one graph, in its order and of the right origin. The effects spoken of are
those that the store and the client see. -/
theorem trace_publishes_graph_once {σ : Type} [SheetStore σ] (config : Config) (now : Int)
    (sheet : SheetId) (playground : PlaygroundId) (events : List SessionEvent) (store : σ) :
    let s : Session := { sheet, playground }
    let t := s.trace config now events store
    let after := s.steps config now events store
    GraphOnce config sheet playground t ∧
      s.steps config now events ({ store } : Journal σ) =
        (after.1, { store := after.2, calls := t.filterMap call? }) ∧
      after.1.sent = t.filterMap message? ∧ after.1.phases = t.filterMap phase? := by
  intro s t after
  have start : Progress config sheet playground [] s.stage :=
    ⟨rfl, by simp [Quiet], by simp [Uncontacted], rfl⟩
  have reached := trace_invariant progress_move now rfl rfl start events store
  obtain ⟨journal, sent, phases⟩ := steps_trace config now s events store
  exact ⟨reached.graphOnce, journal [], sent, phases⟩

/-- A program that prints its graph twice. -/
example :
    let file : SourceFile := { filename := "main.py", code := "run()", language := "python" }
    let loaded : Sheet := { id := ⟨"s"⟩, playground := ⟨"p"⟩, title := "", files := [file] }
    let frame := "---GRAPH_STRUCTURE_BEGIN---\n\x7b\"nodes\":[],\"edges\":[]\x7d\n" ++
      "---GRAPH_STRUCTURE_END---\n"
    let t := ({ sheet := ⟨"s"⟩, playground := ⟨"p"⟩ } : Session).trace {} 0
      ([.proceed, .proceed, .setUp (.ok ()), .started (.ok ()),
          .read .stdout (frame ++ frame).toUTF8.toList] ++ List.replicate 4 (.deliver .stdout))
      ({ sheets := [loaded] } : InMemoryStore)
    (t.filter saves).length = 1 ∧ (t.filter announces).length = 1 := by
  decide +kernel

end Session

end AgentWorkbench
