import AgentWorkbench.Proofs.Frame.Cuts
import AgentWorkbench.Proofs.Frame.Growing
import AgentWorkbench.Session.Output

/-!
Recovering the graph from the standard output. While no graph has come out, the scanner of the
accumulator has consumed whole lines of the buffer, so an append answers what a search of the
whole buffer would. The graph of a run is then the first one of the text read, whichever way the
text was cut, up to frames that were closed early.
-/
namespace AgentWorkbench.OutputAccumulator

open Text AgentWorkbench.Frame FrameScanner

/-- No graph has come out, there is none in the buffer, and the scanner is up to date with it. -/
structure Watching (acc : OutputAccumulator) : Prop where
  latch : acc.graphEmitted = false
  nothing : extractFrame decodeGraph .graph acc.buffer = none
  scanner : ∃ s done rest, acc.scanner = some s ∧ s.kind = .graph ∧ acc.buffer = done ++ rest ∧
    s.Consumed decodeGraph done

theorem Watching.fresh : Watching {} where
  latch := rfl
  nothing := (Consumed.fresh decodeGraph .graph).nothing
  scanner := ⟨_, [], [], rfl, rfl, rfl, .fresh decodeGraph .graph⟩

@[simp] theorem append_buffer (acc : OutputAccumulator) (chunk : List Char) :
    (acc.append chunk).2.buffer = acc.buffer ++ chunk := by
  rw [append]
  split
  · rfl
  · split
    · rfl
    · split <;> rfl

theorem append_of_emitted {acc : OutputAccumulator} (emitted : acc.graphEmitted = true)
    (chunk : List Char) :
    acc.append chunk = (none, { acc with buffer := acc.buffer ++ chunk }) := by
  simp [append, emitted]

theorem append_of_no_scanner {acc : OutputAccumulator} (blind : acc.scanner = none)
    (chunk : List Char) :
    acc.append chunk = (none, { acc with buffer := acc.buffer ++ chunk }) := by
  simp [append, blind]

theorem append_emitted_of_some {acc : OutputAccumulator} {chunk : List Char} {g : PipelineGraph}
    (found : (acc.append chunk).1 = some g) : (acc.append chunk).2.graphEmitted = true := by
  rw [append] at found ⊢
  split
  · next emitted => exact emitted
  · split
    · simp_all
    · split
      · rfl
      · simp_all

theorem Watching.append_fst {acc : OutputAccumulator} (h : Watching acc) (chunk : List Char) :
    (acc.append chunk).1 = extractFrame decodeGraph .graph (acc.buffer ++ chunk) := by
  obtain ⟨s, done, rest, scanner, kind, buffer, consumed⟩ := h.scanner
  have answer := consumed.poll_fst (rest ++ chunk)
  rw [kind, ← List.append_assoc, ← buffer] at answer
  rw [append, ← answer]
  simp only [h.latch, scanner, Bool.false_eq_true, if_false]
  split <;> simp_all

theorem Watching.append_snd {acc : OutputAccumulator} (h : Watching acc) {chunk : List Char}
    (nothing : (acc.append chunk).1 = none) : Watching (acc.append chunk).2 := by
  obtain ⟨s, done, rest, scanner, kind, buffer, consumed⟩ := h.scanner
  have not_there : extractFrame decodeGraph .graph (acc.buffer ++ chunk) = none := by
    rw [← h.append_fst]
    exact nothing
  have poll_none : (s.poll decodeGraph (done ++ (rest ++ chunk))).1 = none := by
    rw [consumed.poll_fst, kind, ← List.append_assoc, ← buffer]
    exact not_there
  have next := consumed.poll_snd poll_none
  obtain ⟨part, -, cut⟩ := exists_unfinished (rest ++ chunk)
  have whole : acc.buffer ++ chunk = done ++ (rest ++ chunk) := by
    rw [buffer, List.append_assoc]
  rw [append]
  simp only [h.latch, scanner, Bool.false_eq_true, if_false]
  rw [← whole] at poll_none next
  cases polled : s.poll decodeGraph (acc.buffer ++ chunk) with
  | mk found s' =>
      have same := s.poll_kind decodeGraph (acc.buffer ++ chunk)
      rw [polled] at poll_none next same
      obtain rfl : found = none := poll_none
      refine ⟨rfl, not_there, s', done ++ completeLines (rest ++ chunk), part, rfl, ?_, ?_, next⟩
      · exact same.trans kind
      · show acc.buffer ++ chunk = _
        rw [List.append_assoc, ← cut, whole]

/-- Adds one chunk after the other: what each addition answers, and the accumulator after them. -/
def appendAll (acc : OutputAccumulator) :
    List (List Char) → List (Option PipelineGraph) × OutputAccumulator
  | [] => ([], acc)
  | chunk :: rest =>
      let (found, acc) := acc.append chunk
      let (more, acc) := appendAll acc rest
      (found :: more, acc)

/-- The first graph that comes out of a fresh accumulator. -/
def firstGraph (chunks : List (List Char)) : Option PipelineGraph :=
  (appendAll {} chunks).1.findSome? id

theorem Watching.findSome?_appendAll {acc : OutputAccumulator} (h : Watching acc)
    (chunks : List (List Char)) :
    (acc.appendAll chunks).1.findSome? id = firstRead decodeGraph .graph acc.buffer chunks := by
  induction chunks generalizing acc with
  | nil => rfl
  | cons chunk rest ih =>
      have answer := h.append_fst chunk
      rw [appendAll, firstRead, ← extractFrame_eq_firstFrame, ← answer]
      cases found : (acc.append chunk).1 with
      | some g => simp [found]
      | none =>
          have next := ih (h.append_snd found)
          rw [append_buffer] at next
          simp [found, next]

theorem firstGraph_eq_firstRead (chunks : List (List Char)) :
    firstGraph chunks = firstRead decodeGraph .graph [] chunks :=
  Watching.fresh.findSome?_appendAll chunks

theorem firstGraph_eq_or_closedEarly (chunks : List (List Char)) :
    firstGraph chunks = firstFrame decodeGraph .graph chunks.flatten ∨
      ∃ n g, firstGraph chunks = some g ∧
        ClosedEarly decodeGraph .graph (chunks.take n).flatten (chunks.drop n).flatten g := by
  rw [firstGraph_eq_firstRead]
  exact firstRead_eq_or_closedEarly decodeGraph .graph (firstFrame_nil decodeGraph .graph) chunks

theorem firstGraph_of_closedEarly {seen later : List Char} {g : PipelineGraph}
    (early : ClosedEarly decodeGraph .graph seen later g) : firstGraph [seen, later] = some g := by
  obtain ⟨-, -, -, -, -, -, -, -, -, -, -, -, found⟩ := early
  rw [firstGraph_eq_firstRead, firstRead, List.nil_append, found, Option.some_or]

/-- The graph of a text does not depend on how the text was cut, and is the one of its first frame
that decodes, exactly if no place in the text closes a frame early or the graph is the same there.
A cut that meets no such place has the graph of the whole text in any case. -/
theorem firstGraph_cut_independent_iff (text : List Char) :
    ((∀ chunks chunks' : List (List Char), chunks.flatten = text → chunks'.flatten = text →
        firstGraph chunks = firstGraph chunks' ∧
          firstGraph chunks = firstFrame decodeGraph .graph text) ↔
      ∀ seen later g, seen ++ later = text → ClosedEarly decodeGraph .graph seen later g →
        firstFrame decodeGraph .graph text = some g) ∧
    ∀ chunks : List (List Char), chunks.flatten = text →
      (∀ n g, ¬ ClosedEarly decodeGraph .graph (chunks.take n).flatten (chunks.drop n).flatten g) →
        firstGraph chunks = firstFrame decodeGraph .graph text := by
  constructor
  · constructor
    · intro independent seen later g cut early
      have same := (independent [seen, later] [seen, later] (by simpa using cut)
        (by simpa using cut)).2
      rw [← same, firstGraph_of_closedEarly early]
    · intro harmless
      have whole (chunks : List (List Char)) (cut : chunks.flatten = text) :
          firstGraph chunks = firstFrame decodeGraph .graph text := by
        obtain same | ⟨n, g, found, early⟩ := firstGraph_eq_or_closedEarly chunks
        · rw [same, cut]
        · rw [found]
          refine (harmless _ _ g ?_ early).symm
          rw [← List.flatten_append, List.take_append_drop, cut]
      intro chunks chunks' cut cut'
      exact ⟨(whole chunks cut).trans (whole chunks' cut').symm, whole chunks cut⟩
  · intro chunks cut on_time
    obtain same | ⟨n, g, -, early⟩ := firstGraph_eq_or_closedEarly chunks
    · rw [same, cut]
    · exact absurd early (on_time n g)

/-- An end sentinel that the next chunk goes on with. -/
theorem firstGraph_not_cut_independent :
    ¬ ∀ (text : List Char) (chunks chunks' : List (List Char)), chunks.flatten = text →
      chunks'.flatten = text → firstGraph chunks = firstGraph chunks' ∧
        firstGraph chunks = firstFrame decodeGraph .graph text := by
  intro independent
  let frame := "---GRAPH_STRUCTURE_BEGIN---\n\x7b\"nodes\":[],\"edges\":[]\x7d\n"
  let seen := (frame ++ "---GRAPH_STRUCTURE_END---").toList
  have cut : (firstGraph [seen, ['x']]).isSome = true := by decide +kernel
  have whole : firstGraph [seen ++ ['x']] = none := by decide +kernel
  have same := (independent (seen ++ ['x']) [seen, ['x']] [seen ++ ['x']] (by simp) (by simp)).1
  rw [same, whole] at cut
  contradiction

end AgentWorkbench.OutputAccumulator
