import AgentWorkbench.Proofs.Session.History

/-!
Publishing a graph that the program prints. While the output is drained, what the reader of the
standard output still has to do tells how far the publication is: nothing found yet, about to save,
about to announce, or settled for good. Each of the reader's actions leads from one to the next, and
what else happens in between makes no difference.
-/
namespace AgentWorkbench

open SessionEffect OutputAccumulator

namespace Session

/-- What was sent of the standard output and what was collected, by what the reader still has to
do. -/
inductive Arriving (t : List SessionEffect) (collected : List Char) : List ReaderAction → Prop where
  | idle (same : printed t = collected) : Arriving t collected []
  | read (text : List Char) (same : printed t = collected) :
      Arriving t collected [.forward text, .collect text]
  | forwarded (text : List Char) {before after : List SessionEffect}
      (cut : t = before ++ .sent (some .stdout) (.output (String.ofList text)) :: after)
      (same : printed before = collected) (silent : printed after = []) :
      Arriving t collected [.collect text]

/-- The reader has nothing to do with a graph. -/
def Tame (pending : List ReaderAction) : Prop :=
  ∀ action ∈ pending, (∃ text, action = .forward text) ∨ ∃ text, action = .collect text

def OnlyForwards (pending : List ReaderAction) : Prop :=
  ∀ action ∈ pending, ∃ text, action = .forward text

/-- The publication of the graph while the output is drained, by what the reader of the standard
output has to do: settled for good, looking for a frame, about to save, or about to announce. -/
inductive Publishing (sheet : SheetId) (playground : PlaygroundId) (plan : RunPlan)
    (t : List SessionEffect) (output : OutputAccumulator) : List ReaderAction → Prop where
  | settled {pending : List ReaderAction} (ran : Ran sheet playground plan t)
      (dull : output.graphEmitted = true ∨ output.scanner = none) (tame : Tame pending) :
      Publishing sheet playground plan t output pending
  | watching {pending : List ReaderAction} (printing : plan.staticGraph = none)
      (extracts : plan.language.extractsGraph = true) (quiet : Quiet t)
      (watching : output.Watching) (arriving : Arriving t output.buffer pending) :
      Publishing sheet playground plan t output pending
  | saving (graph : PipelineGraph) (printing : plan.staticGraph = none)
      (extracts : plan.language.extractsGraph = true) (quiet : Quiet t)
      (emitted : output.graphEmitted = true) (completes : Completes t graph) :
      Publishing sheet playground plan t output [.saveGraph graph]
  | announcing (graph : PipelineGraph) {before rest : List SessionEffect}
      (printing : plan.staticGraph = none) (extracts : plan.language.extractsGraph = true)
      (emitted : output.graphEmitted = true)
      (cut : t = before ++ .called (.saved sheet graph (.ok ())) :: rest)
      (quiet_before : Quiet before) (completes : Completes before graph)
      (quiet : Quiet rest) : Publishing sheet playground plan t output [.announceGraph]

section

variable {sheet : SheetId} {playground : PlaygroundId} {plan : RunPlan}
  {t more : List SessionEffect} {output : OutputAccumulator} {text : List Char}
  {pending rest : List ReaderAction} {graph : PipelineGraph}

theorem ran_of_quiet (printing : plan.staticGraph = none) (quiet : Quiet t) :
    Ran sheet playground plan t := by
  rw [Ran, printing]
  exact .inl quiet

theorem ran_of_publishedOnOutput (printing : plan.staticGraph = none)
    (extracts : plan.language.extractsGraph = true) (h : PublishedOnOutput sheet playground t) :
    Ran sheet playground plan t := by
  rw [Ran, printing]
  exact .inr ⟨extracts, h⟩

theorem Publishing.ran (h : Publishing sheet playground plan t output pending) :
    Ran sheet playground plan t := by
  cases h with
  | settled ran _ _ => exact ran
  | watching printing _ quiet _ _ => exact ran_of_quiet printing quiet
  | saving _ printing _ quiet _ _ => exact ran_of_quiet printing quiet
  | announcing graph printing extracts _ cut quiet_before completes quiet =>
      exact ran_of_publishedOnOutput printing extracts
        ⟨_, _, graph, cut, quiet_before, completes, .saved (.ok ()) quiet⟩

theorem Arriving.append {collected : List Char} (h : Arriving t collected pending)
    (silent : printed more = []) : Arriving (t ++ more) collected pending := by
  have same_printed : printed (t ++ more) = printed t := by
    rw [printed_append, silent, List.append_nil]
  cases h with
  | idle same => exact .idle (same_printed.trans same)
  | read text same => exact .read text (same_printed.trans same)
  | forwarded text cut same silent_after =>
      refine .forwarded text (by rw [cut, List.append_assoc, List.cons_append]) same ?_
      rw [printed_append, silent_after, silent, List.append_nil]

/-- Effects that neither publish nor print make no difference. -/
theorem Publishing.append (h : Publishing sheet playground plan t output pending)
    (quiet : Quiet more) (silent : printed more = []) :
    Publishing sheet playground plan (t ++ more) output pending := by
  cases h with
  | settled ran dull tame => exact .settled (ran.append quiet) dull tame
  | watching printing extracts quiet_t watching arriving =>
      exact .watching printing extracts (quiet_append.mpr ⟨quiet_t, quiet⟩) watching
        (arriving.append silent)
  | saving graph printing extracts quiet_t emitted completes =>
      exact .saving graph printing extracts (quiet_append.mpr ⟨quiet_t, quiet⟩) emitted
        (completes.append more)
  | announcing graph printing extracts emitted cut quiet_before completes quiet_rest =>
      refine .announcing graph printing extracts emitted ?_ quiet_before completes
        (quiet_append.mpr ⟨quiet_rest, quiet⟩)
      rw [cut, List.append_assoc, List.cons_append]

theorem tame_deliveries (text : List Char) : Tame (ReaderTask.deliveries .stdout text) := by
  intro action mem
  rw [ReaderTask.deliveries] at mem
  split at mem
  · simp at mem
  · obtain rfl | rfl := List.mem_pair.mp mem
    · exact .inl ⟨text, rfl⟩
    · exact .inr ⟨text, rfl⟩

theorem onlyForwards_deliveries (text : List Char) :
    OnlyForwards (ReaderTask.deliveries .stderr text) := by
  intro action mem
  rw [ReaderTask.deliveries] at mem
  split at mem
  · simp at mem
  · exact ⟨text, List.mem_singleton.mp mem⟩

/-- A reader takes a text only when it has nothing to do. -/
theorem pending_of_read (stream : OutputStream) (r : ReaderTask) (octets : List UInt8) :
    (r.read stream octets).pending = r.pending ∨ r.pending = [] ∧
      ∃ text, (r.read stream octets).pending = ReaderTask.deliveries stream text := by
  rw [ReaderTask.read]
  split
  · next idle =>
      simp only [ReaderTask.isIdle, Bool.and_eq_true, List.isEmpty_iff] at idle
      exact .inr ⟨idle.1, _, rfl⟩
  · exact .inl rfl

theorem pending_of_close (stream : OutputStream) (r : ReaderTask) :
    (r.close stream).pending = r.pending ∨ r.pending = [] ∧
      ∃ text, (r.close stream).pending = ReaderTask.deliveries stream text := by
  rw [ReaderTask.close]
  split
  · next idle =>
      simp only [ReaderTask.isIdle, Bool.and_eq_true, List.isEmpty_iff] at idle
      exact .inr ⟨idle.1, _, rfl⟩
  · exact .inl rfl

theorem Publishing.take (h : Publishing sheet playground plan t output [])
    (text : List Char) :
    Publishing sheet playground plan t output (ReaderTask.deliveries .stdout text) := by
  cases h with
  | settled ran dull _ => exact .settled ran dull (tame_deliveries text)
  | watching printing extracts quiet watching arriving =>
      refine .watching printing extracts quiet watching ?_
      rw [ReaderTask.deliveries]
      split
      · exact arriving
      · cases arriving with
        | idle same => exact .read text same

theorem quiet_output (reader : Option OutputStream) (text : String) :
    Quiet [.sent reader (.output text)] :=
  quiet_of_all rfl

theorem Publishing.forward
    (h : Publishing sheet playground plan t output (.forward text :: rest)) :
    Publishing sheet playground plan
      (t ++ [.sent (some .stdout) (.output (String.ofList text))]) output rest := by
  cases h with
  | settled ran dull tame =>
      exact .settled (ran.append (quiet_output _ _)) dull fun action mem =>
        tame action (List.mem_cons_of_mem _ mem)
  | watching printing extracts quiet watching arriving =>
      refine .watching printing extracts (quiet_append.mpr ⟨quiet, quiet_output _ _⟩) watching ?_
      cases arriving with
      | read text same => exact .forwarded text rfl same rfl

theorem Publishing.collect
    (h : Publishing sheet playground plan t output (.collect text :: rest)) :
    Publishing sheet playground plan t (output.append text).2
      (((output.append text).1.map ReaderAction.saveGraph).toList ++ rest) := by
  cases h with
  | settled ran dull tame =>
      have tame_rest : Tame rest := fun action mem => tame action (List.mem_cons_of_mem _ mem)
      obtain emitted | blind := dull
      · rw [append_of_emitted emitted]
        exact .settled ran (.inl emitted) tame_rest
      · rw [append_of_no_scanner blind]
        exact .settled ran (.inr blind) tame_rest
  | watching printing extracts quiet watching arriving =>
      cases arriving with
      | forwarded text cut same silent =>
          have answer := watching.append_fst text
          cases found : (output.append text).1 with
          | none =>
              refine .watching printing extracts quiet (watching.append_snd found) (.idle ?_)
              rw [append_buffer, cut, ← same]
              simp [printed, printed?] at silent ⊢
              exact silent
          | some graph =>
              refine .saving graph printing extracts quiet (append_emitted_of_some found) ?_
              refine ⟨_, _, _, cut, ?_, ?_⟩
              · rw [same]
                exact watching.nothing
              · rw [same, String.toList_ofList, ← answer]
                exact found

theorem not_tame {action : ReaderAction} (tame : Tame (action :: rest))
    (no_forward : ∀ text, action ≠ .forward text) (no_collect : ∀ text, action ≠ .collect text) :
    False := by
  obtain ⟨text, same⟩ | ⟨text, same⟩ := tame action List.mem_cons_self
  · exact no_forward text same
  · exact no_collect text same

/-- A reader that is about to save a graph has found it, and has nothing else to do. -/
theorem Publishing.about_to_save
    (h : Publishing sheet playground plan t output (.saveGraph graph :: rest)) :
    rest = [] ∧ plan.staticGraph = none ∧ plan.language.extractsGraph = true ∧ Quiet t ∧
      output.graphEmitted = true ∧ Completes t graph := by
  cases h with
  | settled _ _ tame => exact (not_tame tame (by simp) (by simp)).elim
  | watching _ _ _ _ arriving => cases arriving
  | saving graph printing extracts quiet emitted completes =>
      exact ⟨rfl, printing, extracts, quiet, emitted, completes⟩

theorem Publishing.save (h : Publishing sheet playground plan t output (.saveGraph graph :: rest)) :
    Publishing sheet playground plan (t ++ [.called (.saved sheet graph (.ok ()))]) output
      (.announceGraph :: rest) := by
  obtain ⟨rfl, printing, extracts, quiet, emitted, completes⟩ := h.about_to_save
  exact .announcing graph printing extracts emitted rfl quiet completes (quiet_of_all rfl)

theorem Publishing.notSave
    (h : Publishing sheet playground plan t output (.saveGraph graph :: rest))
    (error : StorageError) :
    Publishing sheet playground plan (t ++ [.called (.saved sheet graph (.error error))]) output
      rest := by
  obtain ⟨rfl, printing, extracts, quiet, emitted, completes⟩ := h.about_to_save
  have nothing_more : Quiet [] := quiet_of_all rfl
  have published : PublishedOnOutput sheet playground
      (t ++ [.called (.saved sheet graph (.error error))]) :=
    ⟨t, _, graph, rfl, quiet, completes, .saved (.error error) nothing_more⟩
  exact .settled (ran_of_publishedOnOutput printing extracts published) (.inl emitted)
    (by simp [Tame])

theorem Publishing.announce
    (h : Publishing sheet playground plan t output (.announceGraph :: rest))
    (reader : Option OutputStream) :
    Publishing sheet playground plan (t ++ [.sent reader (.graphReady sheet playground)]) output
      rest := by
  cases h with
  | settled _ _ tame => exact (not_tame tame (by simp) (by simp)).elim
  | watching _ _ _ _ arriving => cases arriving
  | @announcing graph before between printing extracts emitted cut quiet_before completes quiet =>
      have nothing_more : Quiet [] := quiet_of_all rfl
      have published : PublishedOnOutput sheet playground
          (t ++ [.sent reader (.graphReady sheet playground)]) := by
        refine ⟨before, _, graph, ?_, quiet_before, completes,
          .announced reader quiet nothing_more⟩
        rw [cut, List.append_assoc, List.cons_append]
      exact .settled (ran_of_publishedOnOutput printing extracts published) (.inl emitted)
        (by simp [Tame])

end

end Session

end AgentWorkbench
