import AgentWorkbench.Proofs.Frame.Agreement

/-!
Taking the frames out of a text, as what happens to its lines. A block is a begin sentinel line, the
lines up to the first end sentinel line, and that line; a begin sentinel line outside of the blocks
before it begins one if an end follows. Every block leaves an empty line, and all other lines stay.
Among the lines that are left no end sentinel follows a begin sentinel, which is to say that they
have no frame.
-/
namespace AgentWorkbench.Frame

open Text FrameScanner

/-- The lines with an empty line for every block. -/
inductive Blanked (kind : FrameKind) : List (List Char) → List (List Char) → Prop where
  | nil : Blanked kind [] []
  | kept {line : List Char} {rest left : List (List Char)}
      (unclosed : SentinelLine kind.beginMarker.toList line →
        ∀ later ∈ rest, ¬ SentinelLine kind.endMarker.toList later)
      (more : Blanked kind rest left) : Blanked kind (line :: rest) (line :: left)
  | block {opening closing : List Char} {inner rest left : List (List Char)}
      (opens : SentinelLine kind.beginMarker.toList opening)
      (unended : ∀ line ∈ inner, ¬ SentinelLine kind.endMarker.toList line)
      (closes : SentinelLine kind.endMarker.toList closing)
      (more : Blanked kind rest left) :
      Blanked kind (opening :: (inner ++ closing :: rest)) ([] :: left)

/-- No end sentinel follows a begin sentinel. -/
def BlockFree (kind : FrameKind) (lines : List (List Char)) : Prop :=
  lines.Pairwise fun line later =>
    SentinelLine kind.beginMarker.toList line → ¬ SentinelLine kind.endMarker.toList later

variable {kind : FrameKind}

theorem not_sentinelLine_nil {marker : List Char} (hm : Marker marker) :
    ¬ SentinelLine marker [] := by
  rintro ⟨blanks, cr, -, -, same⟩
  have nothing : marker = [] ∧ blanks = [] ∧ cr = [] := by simpa using same
  exact hm.nonempty nothing.1

namespace Blanked

variable {lines left left' : List (List Char)}

theorem mem (h : Blanked kind lines left) {line : List Char} (mem : line ∈ left) :
    line = [] ∨ line ∈ lines := by
  induction h with
  | nil => contradiction
  | kept _ _ ih =>
      obtain rfl | later := List.mem_cons.mp mem
      · exact .inr List.mem_cons_self
      · exact (ih later).imp_right (List.mem_cons_of_mem _)
  | block _ _ _ _ ih =>
      obtain rfl | later := List.mem_cons.mp mem
      · exact .inl rfl
      · refine (ih later).imp_right fun there => ?_
        exact List.mem_cons_of_mem _ (List.mem_append_right _ (List.mem_cons_of_mem _ there))

/-- A line that is left is no end sentinel if none of the lines was. -/
theorem unended (h : Blanked kind lines left) {other : FrameKind}
    (none_ends : ∀ line ∈ lines, ¬ SentinelLine other.endMarker.toList line) :
    ∀ line ∈ left, ¬ SentinelLine other.endMarker.toList line := by
  intro line mem
  obtain rfl | there := h.mem mem
  · exact not_sentinelLine_nil (marker_end other)
  · exact none_ends line there

theorem blockFree (h : Blanked kind lines left) : BlockFree kind left := by
  induction h with
  | nil => exact .nil
  | kept unclosed more ih =>
      exact .cons (fun later mem opens => more.unended (unclosed opens) later mem) ih
  | block _ _ _ _ ih =>
      exact .cons (fun _ _ opens => absurd opens (not_sentinelLine_nil (marker_begin kind))) ih

/-- Emptying the blocks of one kind makes none of another. -/
theorem keeps_blockFree (h : Blanked kind lines left) {other : FrameKind}
    (free : BlockFree other lines) : BlockFree other left := by
  induction h with
  | nil => exact .nil
  | kept _ more ih =>
      obtain ⟨first, rest⟩ := List.pairwise_cons.mp free
      refine .cons (fun later mem opens => ?_) (ih rest)
      exact more.unended (fun line there => first line there opens) later mem
  | block _ _ _ _ ih =>
      have rest := (List.pairwise_append.mp (List.pairwise_cons.mp free).2).2.1
      have unopened := not_sentinelLine_nil (marker_begin other)
      exact .cons (fun _ _ opens => absurd opens unopened) (ih (List.pairwise_cons.mp rest).2)

/-- The first end sentinel in some lines is at one place. -/
theorem first_end_unique {inner inner' rest rest' : List (List Char)} {closing closing' : List Char}
    (unended : ∀ line ∈ inner, ¬ SentinelLine kind.endMarker.toList line)
    (unended' : ∀ line ∈ inner', ¬ SentinelLine kind.endMarker.toList line)
    (closes : SentinelLine kind.endMarker.toList closing)
    (closes' : SentinelLine kind.endMarker.toList closing')
    (same : inner ++ closing :: rest = inner' ++ closing' :: rest') : rest = rest' := by
  induction inner generalizing inner' with
  | nil =>
      cases inner' with
      | nil => exact (List.cons_eq_cons.mp same).2
      | cons line inner' =>
          obtain ⟨rfl, -⟩ := List.cons_eq_cons.mp same
          exact absurd closes (unended' closing List.mem_cons_self)
  | cons line inner ih =>
      cases inner' with
      | nil =>
          obtain ⟨rfl, -⟩ := List.cons_eq_cons.mp same
          exact absurd closes' (unended line List.mem_cons_self)
      | cons line' inner' =>
          exact ih (List.forall_mem_cons.mp unended).2 (List.forall_mem_cons.mp unended').2
            (List.cons_eq_cons.mp same).2

theorem unique (h : Blanked kind lines left) (h' : Blanked kind lines left') : left = left' := by
  induction h generalizing left' with
  | nil => cases h'; rfl
  | kept unclosed _ ih =>
      generalize same : _ :: _ = lines at h'
      cases h' with
      | nil => contradiction
      | kept _ more =>
          obtain ⟨rfl, rfl⟩ := List.cons_eq_cons.mp same
          rw [ih more]
      | block opens _ closes _ =>
          obtain ⟨rfl, rfl⟩ := List.cons_eq_cons.mp same
          exact absurd closes (unclosed opens _ (by simp))
  | block opens unended closes _ ih =>
      generalize same : _ :: _ = lines at h'
      cases h' with
      | nil => contradiction
      | kept unclosed _ =>
          obtain ⟨rfl, rfl⟩ := List.cons_eq_cons.mp same
          exact absurd closes (unclosed opens _ (by simp))
      | block _ unended' closes' more =>
          obtain ⟨-, same⟩ := List.cons_eq_cons.mp same
          obtain rfl := first_end_unique unended unended' closes closes' same
          rw [ih more]

end Blanked

/-- Lines without a block stay as they are. -/
theorem BlockFree.blanked {lines : List (List Char)} (h : BlockFree kind lines) :
    Blanked kind lines lines := by
  induction lines with
  | nil => exact .nil
  | cons line rest ih =>
      obtain ⟨first, rest⟩ := List.pairwise_cons.mp h
      exact .kept (fun opens later mem => first later mem opens) (ih rest)

theorem segments_eq_segmentsOf {cs : List Char} {fuel : Nat} (enough : cs.length < fuel) :
    segments kind fuel true cs = segmentsOf kind cs := by
  rw [segmentsOf, segments_eq_cutOut .nil enough, segments_eq_cutOut .nil (Nat.lt_succ_self _)]

theorem segmentsOf_last {body : List Char} (clean : '\n' ∉ body) :
    segmentsOf kind body = body.map .kept :=
  segments_last kind clean (Nat.lt_succ_self _)

theorem segmentsOf_line {body rest : List Char} (clean : '\n' ∉ body)
    (none_here : occurrence? kind (body ++ '\n' :: rest) = none) :
    segmentsOf kind (body ++ '\n' :: rest) =
      (body ++ ['\n']).map .kept ++ segmentsOf kind rest := by
  have fuel : (body ++ '\n' :: rest).length + 1 = body.length + (rest.length + 1 + 1) := by
    simp only [List.length_append, List.length_cons]
    omega
  rw [segmentsOf, fuel, segments_line clean none_here, segments_eq_segmentsOf (Nat.lt_succ_self _)]

theorem segmentsOf_frame {opening payload closing after : List Char}
    (opens : SentinelLine kind.beginMarker.toList opening)
    (h : Enclosed kind payload closing after) :
    segmentsOf kind (opening ++ '\n' :: (payload ++ closing ++ after)) =
      .frame ('\n' :: payload) :: ((after.take 1).map .kept ++ segmentsOf kind after.tail) := by
  rw [segmentsOf, segments_frame opens h]
  congr 1
  cases after with
  | nil =>
      have nothing : segmentsOf kind [] = [] := segmentsOf_last List.not_mem_nil
      simp [segments_nil, nothing]
  | cons c rest =>
      obtain rfl : c = '\n' := h.tail c rfl
      obtain ⟨left, fuel⟩ : ∃ left,
          (opening ++ '\n' :: (payload ++ closing ++ '\n' :: rest)).length = left + 1 :=
        ⟨_, by rw [List.length_append, List.length_cons, ← Nat.add_assoc]⟩
      have enough : rest.length < left := by
        simp only [List.length_append, List.length_cons] at fuel
        omega
      rw [fuel, segments_break, segments_eq_segmentsOf enough]
      rfl

theorem strip_last {body : List Char} (clean : '\n' ∉ body) : strip kind body = body := by
  simp [strip, segmentsOf_last clean]

theorem strip_line {body rest : List Char} (clean : '\n' ∉ body)
    (none_here : occurrence? kind (body ++ '\n' :: rest) = none) :
    strip kind (body ++ '\n' :: rest) = body ++ '\n' :: strip kind rest := by
  simp [strip, segmentsOf_line clean none_here]

theorem strip_frame {opening payload closing after : List Char}
    (opens : SentinelLine kind.beginMarker.toList opening)
    (h : Enclosed kind payload closing after) :
    strip kind (opening ++ '\n' :: (payload ++ closing ++ after)) =
      after.take 1 ++ strip kind after.tail := by
  rw [strip, strip, segmentsOf_frame opens h]
  cases after <;> simp

theorem payloads_line {body rest : List Char} (clean : '\n' ∉ body)
    (none_here : occurrence? kind (body ++ '\n' :: rest) = none) :
    payloads kind (body ++ '\n' :: rest) = payloads kind rest := by
  simp [payloads, segmentsOf_line clean none_here]

theorem payloads_frame_ne_nil {opening payload closing after : List Char}
    (opens : SentinelLine kind.beginMarker.toList opening)
    (h : Enclosed kind payload closing after) :
    payloads kind (opening ++ '\n' :: (payload ++ closing ++ after)) ≠ [] := by
  rw [payloads, segmentsOf_frame opens h]
  simp

theorem not_sentinelLine_of_isEnd {line : List Char}
    (h : isEnd kind line = false) : ¬ SentinelLine kind.endMarker.toList line := by
  intro ends
  rw [isEnd_closing ends] at h
  contradiction

/-- The lines between the sentinels of a frame, and those from its last one on. -/
theorem Enclosed.exists_inner {payload closing after : List Char}
    (h : Enclosed kind payload closing after) :
    ∃ inner, (∀ line ∈ inner, ¬ SentinelLine kind.endMarker.toList line) ∧
      splitOn '\n' (payload ++ closing ++ after) = inner ++ closing :: linesAfter after := by
  induction payload using line_induction with
  | last body clean =>
      obtain rfl := h.whole.eq_nil clean
      exact ⟨[], by simp, splitOn_line_tail h.closing_unbroken h.tail⟩
  | line body rest clean ih =>
      obtain ⟨no_end, h⟩ := (Enclosed.cons_line clean).mp h
      obtain ⟨inner, unended, cut⟩ := ih h
      refine ⟨body :: inner, ?_, ?_⟩
      · exact List.forall_mem_cons.mpr ⟨not_sentinelLine_of_isEnd no_end, unended⟩
      · have text : body ++ '\n' :: rest ++ closing ++ after =
            body ++ '\n' :: (rest ++ closing ++ after) := by simp
        rw [text, splitOn_part clean, cut, List.cons_append]

theorem unended_of_untilEnd? {cs : List Char}
    (no_end : untilEnd? kind.endMarker.toList true cs = none) :
    ∀ line ∈ splitOn '\n' cs, ¬ SentinelLine kind.endMarker.toList line := by
  induction cs using line_induction with
  | last body clean =>
      rw [untilEnd?_last (marker_end kind) clean] at no_end
      rw [splitOn_last clean, List.forall_mem_singleton]
      exact not_sentinelLine_of_isEnd (by simpa [isEnd] using no_end)
  | line body rest clean ih =>
      rw [untilEnd?_line (marker_end kind) clean] at no_end
      split at no_end
      · contradiction
      · next inner =>
          rw [splitOn_part clean, List.forall_mem_cons]
          refine ⟨not_sentinelLine_of_isEnd ?_, ih (Option.map_eq_none_iff.mp no_end)⟩
          simpa [isEnd] using inner

/-- A begin sentinel line at which no frame starts has no end sentinel after it. -/
theorem unclosed_of_no_occurrence {body rest : List Char} (clean : '\n' ∉ body)
    (none_here : occurrence? kind (body ++ '\n' :: rest) = none)
    (opens : SentinelLine kind.beginMarker.toList body) :
    ∀ later ∈ splitOn '\n' rest, ¬ SentinelLine kind.endMarker.toList later := by
  have begins : isBegin kind body = true := (isSentinel_iff (marker_begin kind) clean).mpr opens
  rw [occurrence?_line kind clean, if_pos begins] at none_here
  exact unended_of_untilEnd? (Option.map_eq_none_iff.mp none_here)

theorem blanked_strip (kind : FrameKind) (cs : List Char) :
    Blanked kind (splitOn '\n' cs) (splitOn '\n' (strip kind cs)) := by
  induction cs using frame_induction kind with
  | last body clean =>
      rw [strip_last clean, splitOn_last clean]
      exact .kept (by simp) .nil
  | line body rest clean none_here ih =>
      rw [strip_line clean none_here, splitOn_part clean, splitOn_part clean]
      exact .kept (unclosed_of_no_occurrence clean none_here) ih
  | frame opening payload closing after opens enclosed ih =>
      obtain ⟨inner, unended, cut⟩ := enclosed.exists_inner
      rw [splitOn_part (opens.unbroken (marker_begin kind)), cut, strip_frame opens enclosed]
      cases after with
      | nil =>
          rw [linesAfter, List.take_nil, List.tail_nil, strip_last List.not_mem_nil]
          exact .block opens unended enclosed.closing .nil
      | cons c rest =>
          obtain rfl : c = '\n' := enclosed.tail c rfl
          have clean : '\n' ∉ ([] : List Char) := List.not_mem_nil
          have left : splitOn '\n' (['\n'] ++ strip kind rest) =
              [] :: splitOn '\n' (strip kind rest) := splitOn_part clean _
          exact left ▸ .block opens unended enclosed.closing ih

/-- A text has no frame exactly if no end sentinel line follows a begin sentinel line. -/
theorem payloads_eq_nil_iff {cs : List Char} :
    payloads kind cs = [] ↔ BlockFree kind (splitOn '\n' cs) := by
  induction cs using frame_induction kind with
  | last body clean =>
      rw [splitOn_last clean, payloads, segmentsOf_last clean]
      simp [BlockFree]
  | line body rest clean none_here ih =>
      have unclosed := unclosed_of_no_occurrence clean none_here
      rw [payloads_line clean none_here, ih, splitOn_part clean, BlockFree, BlockFree,
        List.pairwise_cons]
      exact ⟨fun free => ⟨fun later mem opens => unclosed opens later mem, free⟩, And.right⟩
  | frame opening payload closing after opens enclosed _ =>
      obtain ⟨inner, -, cut⟩ := enclosed.exists_inner
      rw [splitOn_part (opens.unbroken (marker_begin kind)), cut]
      refine iff_of_false (payloads_frame_ne_nil opens enclosed) fun free => ?_
      exact (List.pairwise_cons.mp free).1 closing (by simp) opens enclosed.closing

theorem strip_eq_self {cs : List Char} (free : BlockFree kind (splitOn '\n' cs)) :
    strip kind cs = cs := by
  have same := (blanked_strip kind cs).unique free.blanked
  rw [← join_splitOn '\n' (strip kind cs), same, join_splitOn]

theorem extractFrame_eq_none {cs : List Char} (free : BlockFree kind (splitOn '\n' cs))
    {α : Type} (decode : String → Option α) : extractFrame decode kind cs = none := by
  rw [extractFrame_eq_findSome?_payloads, payloads_eq_nil_iff.mpr free]
  rfl

theorem blockFree_strip (kind : FrameKind) (cs : List Char) :
    BlockFree kind (splitOn '\n' (strip kind cs)) :=
  (blanked_strip kind cs).blockFree

/-- Taking the frames out leaves an empty line for every block and all other lines as they are, and
nothing else does. What is left has no frame, whatever payloads decode to, and nothing more is taken
out of it. -/
theorem strip_blanks_blocks (kind : FrameKind) (cs : List Char) :
    (∀ left, Blanked kind (splitOn '\n' cs) left ↔ left = splitOn '\n' (strip kind cs)) ∧
      (∀ {α : Type} (decode : String → Option α),
        extractFrame decode kind (strip kind cs) = none) ∧
      strip kind (strip kind cs) = strip kind cs := by
  have blanked := blanked_strip kind cs
  refine ⟨fun left => ⟨fun h => h.unique blanked, fun same => same ▸ blanked⟩, ?_, ?_⟩
  · exact extractFrame_eq_none (blockFree_strip kind cs)
  · exact strip_eq_self (blockFree_strip kind cs)

/-- The second begin sentinel is inside the block, and the one behind the block has no end. -/
example :
    let begins := FrameKind.timings.beginMarker.toList
    let ends := FrameKind.timings.endMarker.toList
    strip .timings (join ['\n'] [['a'], begins, begins, ends ++ [' '], ['b'], begins]) =
      join ['\n'] [['a'], [], ['b'], begins] := by
  decide +kernel

end AgentWorkbench.Frame
