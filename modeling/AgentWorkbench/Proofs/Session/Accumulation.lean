import AgentWorkbench.Proofs.Frame.Trimmed
import AgentWorkbench.Proofs.Session.Output

/-!
The accumulator over any sequence of calls. While its latch is open it watches the text, so that an
append answers what a search of the whole text would; the first graph or the first mark closes the
latch for good. The text goes on to be kept, and what is reported of it in the end has no frames but
those that trimming uncovers.
-/
namespace AgentWorkbench

inductive OutputCall where
  | append (chunk : List Char)
  /-- A graph was found another way. -/
  | mark
  deriving DecidableEq, Repr

def OutputCall.chunk? : OutputCall → Option (List Char)
  | append chunk => some chunk
  | mark => none

namespace OutputAccumulator

open AgentWorkbench.Frame

/-- A new accumulator, which looks for a graph or does not. -/
def start (looking : Bool) : OutputAccumulator := if looking then {} else withoutGraph

def call (acc : OutputAccumulator) : OutputCall → Option PipelineGraph × OutputAccumulator
  | .append chunk => acc.append chunk
  | .mark => (none, acc.markGraphEmitted)

/-- The answers to the calls, and the accumulator after them. -/
def callAll (acc : OutputAccumulator) (calls : List OutputCall) :
    List (Option PipelineGraph) × OutputAccumulator :=
  calls.foldl (fun (answers, acc) c => (answers ++ [(acc.call c).1], (acc.call c).2)) ([], acc)

/-- The text that the calls append. -/
def appended (calls : List OutputCall) : List Char := (calls.filterMap OutputCall.chunk?).flatten

theorem callAll_append (acc : OutputAccumulator) (calls : List OutputCall) (c : OutputCall) :
    acc.callAll (calls ++ [c]) =
      ((acc.callAll calls).1 ++ [((acc.callAll calls).2.call c).1],
        ((acc.callAll calls).2.call c).2) := by
  rw [callAll, List.foldl_append]
  rfl

theorem appended_append (calls : List OutputCall) (chunk : List Char) :
    appended (calls ++ [.append chunk]) = appended calls ++ chunk := by
  simp [appended, OutputCall.chunk?]

theorem appended_mark (calls : List OutputCall) :
    appended (calls ++ [.mark]) = appended calls := by
  simp [appended, OutputCall.chunk?]

/-- The latch is closed by the graph that comes out, and by nothing else that is appended. -/
theorem append_graphEmitted (acc : OutputAccumulator) (chunk : List Char) :
    (acc.append chunk).2.graphEmitted = (acc.graphEmitted || (acc.append chunk).1.isSome) := by
  rw [append]
  split
  · next closed =>
      change acc.graphEmitted = true at closed
      simp [closed]
  · next opened =>
      change ¬ acc.graphEmitted = true at opened
      split
      · simp
      · split <;> simp [opened]

/-- What is known of an accumulator after some calls and their answers. -/
structure Latched (looking : Bool) (calls : List OutputCall)
    (answers : List (Option PipelineGraph)) (acc : OutputAccumulator) : Prop where
  buffer : acc.buffer = appended calls
  closed : acc.graphEmitted = true ↔ .mark ∈ calls ∨ ∃ found ∈ answers, found.isSome = true
  once : (answers.filterMap id).length ≤ 1
  blind : looking = false → acc.scanner = none
  watching : looking = true → acc.graphEmitted = false → Watching acc

namespace Latched

variable {looking : Bool} {calls : List OutputCall} {answers : List (Option PipelineGraph)}
  {acc : OutputAccumulator}

theorem start (looking : Bool) : Latched looking [] [] (start looking) where
  buffer := by cases looking <;> rfl
  closed := by cases looking <;> simp [OutputAccumulator.start, withoutGraph]
  once := Nat.zero_le 1
  blind := by rintro rfl; rfl
  watching := by rintro rfl _; exact .fresh

/-- Nothing came out and nothing was marked, as long as the latch is open. -/
theorem opened_iff (h : Latched looking calls answers acc) :
    acc.graphEmitted = false ↔ .mark ∉ calls ∧ ∀ found ∈ answers, found = none := by
  rw [← Bool.not_eq_true, h.closed, not_or, not_exists]
  simp

theorem append_fst (h : Latched looking calls answers acc) (chunk : List Char) :
    (acc.append chunk).1 =
      if looking = true ∧ acc.graphEmitted = false then
        extractFrame decodeGraph .graph (appended calls ++ chunk)
      else none := by
  cases closed : acc.graphEmitted with
  | true => simp [append_of_emitted closed]
  | false =>
      cases looking with
      | false => simp [append_of_no_scanner (h.blind rfl)]
      | true => simp [(h.watching rfl closed).append_fst, h.buffer]

theorem filterMap_eq_nil (h : Latched looking calls answers acc)
    (opened : acc.graphEmitted = false) : answers.filterMap id = [] :=
  List.filterMap_eq_nil_iff.mpr (h.opened_iff.mp opened).2

theorem append (h : Latched looking calls answers acc) (chunk : List Char) :
    Latched looking (calls ++ [.append chunk]) (answers ++ [(acc.append chunk).1])
      (acc.append chunk).2 where
  buffer := by rw [append_buffer, h.buffer, appended_append]
  closed := by
    rw [append_graphEmitted, Bool.or_eq_true, h.closed]
    simp [or_and_right, exists_or, or_assoc]
  once := by
    have answer := h.append_fst chunk
    rw [List.filterMap_append, List.length_append]
    split at answer
    · next opened =>
        rw [h.filterMap_eq_nil opened.2, List.length_nil, Nat.zero_add]
        exact List.length_filterMap_le ..
    · rw [answer]
      exact h.once
  blind none_sought := by
    rw [append_of_no_scanner (h.blind none_sought)]
    exact h.blind none_sought
  watching sought opened := by
    rw [append_graphEmitted, Bool.or_eq_false_iff, Option.isSome_eq_false_iff,
      Option.isNone_iff_eq_none] at opened
    exact (h.watching sought opened.1).append_snd opened.2

theorem mark (h : Latched looking calls answers acc) :
    Latched looking (calls ++ [.mark]) (answers ++ [none]) acc.markGraphEmitted where
  buffer := by rw [appended_mark]; exact h.buffer
  closed := by simp [markGraphEmitted]
  once := by simpa using h.once
  blind := h.blind
  watching _ opened := by simp [markGraphEmitted] at opened

theorem callAll (looking : Bool) (calls : List OutputCall) :
    Latched looking calls ((OutputAccumulator.start looking).callAll calls).1
      ((OutputAccumulator.start looking).callAll calls).2 := by
  induction calls using List.reverseRecOn with
  | nil => exact start looking
  | append_singleton calls c ih =>
      rw [callAll_append]
      cases c with
      | append chunk => exact ih.append chunk
      | mark => exact ih.mark

end Latched

/-- After any calls the accumulator has the whole text, its latch is closed exactly if a graph was
marked or came out, and no second one came out. The next append gives a graph exactly if one is
looked for, none was marked or came out before, and the graph is that of the first frame in the
whole text that decodes. -/
theorem append_gives_first_graph (looking : Bool) (calls : List OutputCall) :
    let answers := ((start looking).callAll calls).1
    let acc := ((start looking).callAll calls).2
    acc.buffer = appended calls ∧
      (acc.graphEmitted = true ↔ .mark ∈ calls ∨ ∃ found ∈ answers, found.isSome = true) ∧
      (answers.filterMap id).length ≤ 1 ∧
      ∀ chunk graph, (acc.append chunk).1 = some graph ↔
        looking = true ∧ .mark ∉ calls ∧ (∀ found ∈ answers, found = none) ∧
          extractFrame decodeGraph .graph (appended calls ++ chunk) = some graph := by
  intro answers acc
  have latched : Latched looking calls answers acc := Latched.callAll looking calls
  refine ⟨latched.buffer, latched.closed, latched.once, fun chunk graph => ?_⟩
  rw [latched.append_fst, Option.ite_none_right_eq_some, latched.opened_iff, and_assoc, and_assoc]

/-- A text has no complete frame of the kind: none is found in it, whatever payloads decode to, and
none is taken out of it. -/
def FrameFree (kind : FrameKind) (cs : List Char) : Prop :=
  (∀ {α : Type} (decode : String → Option α), extractFrame decode kind cs = none) ∧
    strip kind cs = cs

theorem frameFree_iff {kind : FrameKind} {cs : List Char} :
    FrameFree kind cs ↔ payloads kind cs = [] := by
  constructor
  · rintro ⟨nothing, -⟩
    have none_found := nothing fun _ => some ()
    rw [extractFrame_eq_findSome?_payloads, List.findSome?_eq_none_iff] at none_found
    refine List.eq_nil_iff_forall_not_mem.mpr fun payload mem => ?_
    simpa [decodePayload] using none_found payload mem
  · intro free
    rw [payloads_eq_nil_iff] at free
    exact ⟨extractFrame_eq_none free, strip_eq_self free⟩

/-- What the output is before its blanks are dropped. -/
def remains (calls : List OutputCall) : List Char := strip .timings (strip .graph (appended calls))

theorem frameFree_remains (kind : FrameKind) (calls : List OutputCall) :
    FrameFree kind (remains calls) := by
  rw [frameFree_iff, payloads_eq_nil_iff]
  cases kind with
  | graph => exact (blanked_strip .timings _).keeps_blockFree (blockFree_strip .graph _)
  | timings => exact blockFree_strip .timings _

/-- The text that is left without its frames has none, of either kind. The output is that text
without the blanks at its ends, and has a frame exactly if the text has one up to those blanks. -/
theorem output_frameFree_iff (looking : Bool) (calls : List OutputCall) (kind : FrameKind) :
    let acc := ((start looking).callAll calls).2
    acc.output.toList = Text.trim (remains calls) ∧ FrameFree kind (remains calls) ∧
      (FrameFree kind acc.output.toList ↔ ¬ FrameUpToBlanks kind (remains calls)) := by
  intro acc
  have latched : Latched looking calls _ acc := Latched.callAll looking calls
  have trimmed : acc.output.toList = Text.trim (remains calls) := by
    rw [output, latched.buffer, String.toList_ofList, remains]
  refine ⟨trimmed, frameFree_remains kind calls, ?_⟩
  rw [trimmed, frameFree_iff, payloads_trim_eq_nil_iff]

/-- A begin sentinel with a blank in front of it, at the start of the output. -/
theorem output_not_frameFree :
    ¬ ∀ (looking : Bool) (calls : List OutputCall) (kind : FrameKind),
      FrameFree kind ((start looking).callAll calls).2.output.toList := by
  intro free
  let text := " ---TIMINGS_JSON_BEGIN---\n1\n---TIMINGS_JSON_END---"
  have found : (extractFrame decodeTimings .timings
      ((start true).callAll [.append text.toList]).2.output.toList).isSome = true := by
    decide +kernel
  have nothing := (free true [.append text.toList] .timings).1 decodeTimings
  rw [nothing] at found
  contradiction

end OutputAccumulator

end AgentWorkbench
