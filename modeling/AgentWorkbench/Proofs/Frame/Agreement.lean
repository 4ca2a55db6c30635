import AgentWorkbench.Proofs.Frame.Closings
import AgentWorkbench.Proofs.Frame.Pattern

/-!
The frames of the pattern and the frames of the scanner. The pattern is read at a place of the
text and looks for an end sentinel from there on; the scanner goes through the lines once and
keeps the place of the open frame. Both cut the same frames out of every text, so the first
payload that decodes is the same for both.
-/
namespace AgentWorkbench

open Text AgentWorkbench.Frame

/-- A frame of a text by its places: the begin sentinel line from `start` to `payloadStart`, the
end sentinel from `payloadStop` to `stop`, which is before the break of its line. -/
structure FrameSpan where
  start : Nat
  payloadStart : Nat
  payloadStop : Nat
  stop : Nat
  deriving DecidableEq, Repr

/-- What stands at the places of a frame: after whole lines a begin sentinel line, then lines none
of which is an end sentinel, then an end sentinel. -/
def FrameSpan.Delimits (kind : FrameKind) (cs : List Char) (f : FrameSpan) : Prop :=
  ∃ before opening payload closing after,
    cs = before ++ (opening ++ '\n' :: (payload ++ closing ++ after)) ∧ WholeLines before ∧
      SentinelLine kind.beginMarker.toList opening ∧ Enclosed kind payload closing after ∧
      f.start = before.length ∧ f.payloadStart = f.start + opening.length + 1 ∧
      f.payloadStop = f.payloadStart + payload.length ∧ f.stop = f.payloadStop + closing.length

namespace FrameScanner

/-- The frames that are closed in the lines; `opened` is where the open frame and its payload
begin. -/
def framesIn (kind : FrameKind) :
    (opened : Option (Nat × Nat)) → (lineStart : Nat) → List (List Char) → List FrameSpan
  | _, _, [] => []
  | none, lineStart, line :: rest =>
      framesIn kind (if isBegin kind line then some (lineStart, lineStart + line.length) else none)
        (lineStart + line.length) rest
  | some (start, payloadStart), lineStart, line :: rest =>
      if isEnd kind line then
        ⟨start, payloadStart, lineStart, lineStart + (dropLast '\n' line).length⟩ ::
          framesIn kind none (lineStart + line.length) rest
      else framesIn kind (some (start, payloadStart)) (lineStart + line.length) rest

@[simp] theorem framesIn_nil (kind : FrameKind) (opened : Option (Nat × Nat)) (lineStart : Nat) :
    framesIn kind opened lineStart [] = [] := by
  cases opened <;> rfl

theorem framesIn_none (kind : FrameKind) (lineStart : Nat) (line : List Char)
    (rest : List (List Char)) :
    framesIn kind none lineStart (line :: rest) =
      framesIn kind (if isBegin kind line then some (lineStart, lineStart + line.length) else none)
        (lineStart + line.length) rest := rfl

theorem framesIn_some (kind : FrameKind) (opened : Nat × Nat) (lineStart : Nat) (line : List Char)
    (rest : List (List Char)) :
    framesIn kind (some opened) lineStart (line :: rest) =
      if isEnd kind line then
        ⟨opened.1, opened.2, lineStart, lineStart + (dropLast '\n' line).length⟩ ::
          framesIn kind none (lineStart + line.length) rest
      else framesIn kind (some opened) (lineStart + line.length) rest := rfl

/-- The frames that the scanner opens and closes in the whole text. -/
def scannedFrames (kind : FrameKind) (cs : List Char) : List FrameSpan :=
  framesIn kind none 0 (pieces cs)

theorem map_framesIn (kind : FrameKind) (opened : Option (Nat × Nat)) (lineStart : Nat)
    (lines : List (List Char)) :
    (framesIn kind opened lineStart lines).map (fun f => (f.payloadStart, f.payloadStop)) =
      closings kind (opened.map Prod.snd) lineStart lines := by
  induction lines generalizing opened lineStart with
  | nil => rfl
  | cons line rest ih =>
      cases opened with
      | none =>
          rw [framesIn_none, ih]
          by_cases h : isBegin kind line <;> simp [closedBy, afterLine, h]
      | some start =>
          rw [framesIn_some]
          by_cases h : isEnd kind line <;> simp [closedBy, afterLine, h, ih]

theorem le_start_of_mem_framesIn {kind : FrameKind} {n : Nat} {opened : Option (Nat × Nat)}
    {lineStart : Nat} {lines : List (List Char)} (ho : ∀ start ∈ opened, n ≤ start.1)
    (hn : n ≤ lineStart) : ∀ f ∈ framesIn kind opened lineStart lines, n ≤ f.start := by
  induction lines generalizing opened lineStart with
  | nil => simp
  | cons line rest ih =>
      have hn' : n ≤ lineStart + line.length := Nat.le_add_right_of_le hn
      cases opened with
      | none =>
          rw [framesIn_none]
          refine ih ?_ hn'
          intro start hs
          simp only [Option.mem_def, Option.ite_none_right_eq_some, Option.some.injEq] at hs
          rw [← hs.2]
          exact hn
      | some start =>
          have first := ho start rfl
          rw [framesIn_some]
          split
          · intro f hf
            obtain rfl | hf := List.mem_cons.mp hf
            · exact first
            · exact ih (by simp) hn' f hf
          · exact ih ho hn'

theorem framesIn_pairwise (kind : FrameKind) (opened : Option (Nat × Nat)) (lineStart : Nat)
    (lines : List (List Char)) :
    (framesIn kind opened lineStart lines).Pairwise (fun f g => f.stop ≤ g.start) := by
  induction lines generalizing opened lineStart with
  | nil => simp
  | cons line rest ih =>
      cases opened with
      | none =>
          rw [framesIn_none]
          exact ih _ _
      | some start =>
          rw [framesIn_some]
          split
          · refine List.pairwise_cons.mpr ⟨?_, ih _ _⟩
            have within : (dropLast '\n' line).length ≤ line.length := dropLast_length_le '\n' line
            exact le_start_of_mem_framesIn (by simp) (Nat.add_le_add_left within lineStart)
          · exact ih _ _

/-- No frame is closed in lines in which the search for an end finds none. -/
theorem framesIn_of_no_end {kind : FrameKind} {cs : List Char}
    (no_end : untilEnd? kind.endMarker.toList true cs = none) (opened : Option (Nat × Nat))
    (lineStart : Nat) : framesIn kind opened lineStart (pieces cs) = [] := by
  induction cs using line_induction generalizing opened lineStart with
  | last body clean =>
      have inner : isEnd kind body = false := by
        rw [untilEnd?_last (marker_end kind) clean] at no_end
        simpa [isEnd] using no_end
      by_cases ne : body = []
      · simp [ne]
      · rw [pieces_last ne clean]
        cases opened with
        | none => simp [framesIn_none]
        | some start => simp [framesIn_some, inner]
  | line body rest clean ih =>
      rw [untilEnd?_line (marker_end kind) clean] at no_end
      split at no_end
      · contradiction
      · next inner =>
          have no_later := Option.map_eq_none_iff.mp no_end
          have inner : isEnd kind (body ++ ['\n']) = false := by
            rw [isEnd_break kind clean]
            simpa [isEnd] using inner
          rw [pieces_line clean]
          cases opened with
          | none =>
              rw [framesIn_none]
              exact ih no_later _ _
          | some start =>
              rw [framesIn_some, if_neg (by simp [inner])]
              exact ih no_later _ _

/-- A line at which no frame starts makes no difference, also if it is a begin sentinel. -/
theorem framesIn_of_no_occurrence {kind : FrameKind} {body rest : List Char} (clean : '\n' ∉ body)
    (none_here : occurrence? kind (body ++ '\n' :: rest) = none) (lineStart : Nat) :
    framesIn kind none lineStart (pieces (body ++ '\n' :: rest)) =
      framesIn kind none (lineStart + (body ++ ['\n']).length) (pieces rest) := by
  rw [pieces_line clean, framesIn_none, isBegin_break kind clean]
  rw [occurrence?_line kind clean] at none_here
  split at none_here
  · have no_end := Option.map_eq_none_iff.mp none_here
    rw [framesIn_of_no_end no_end, framesIn_of_no_end no_end]
  · next h => rw [if_neg h]

theorem framesIn_enclosed {kind : FrameKind} {payload closing after : List Char}
    (h : Enclosed kind payload closing after) (start payloadStart lineStart : Nat) :
    framesIn kind (some (start, payloadStart)) lineStart (pieces (payload ++ closing ++ after)) =
      ⟨start, payloadStart, lineStart + payload.length,
          lineStart + payload.length + closing.length⟩ ::
        framesIn kind none (lineStart + payload.length + closing.length + 1)
          (pieces after.tail) := by
  induction payload using line_induction generalizing lineStart with
  | last body clean =>
      obtain rfl := h.whole.eq_nil clean
      have clean := h.closing_unbroken
      have ends := isEnd_closing h.closing
      have ne : closing ≠ [] := by
        rintro rfl
        obtain ⟨blanks, cr, -, -, same⟩ := h.closing
        have nonempty := (marker_end kind).nonempty
        simp_all
      cases cut : after with
      | nil =>
          have whole : dropLast '\n' closing = closing :=
            dropLast_of_ne (getLast?_ne_of_not_mem clean)
          simp [pieces_last ne clean, framesIn_some, ends, whole]
      | cons c rest =>
          obtain rfl : c = '\n' := h.tail c (by rw [cut]; rfl)
          have ends' : isEnd kind (closing ++ ['\n']) = true := by rwa [isEnd_break kind clean]
          simp [pieces_line clean, framesIn_some, ends', Nat.add_assoc]
  | line body rest clean ih =>
      obtain ⟨inner, h⟩ := (Enclosed.cons_line clean).mp h
      have cut : body ++ '\n' :: rest ++ closing ++ after =
          body ++ '\n' :: (rest ++ closing ++ after) := by simp
      have inner : isEnd kind (body ++ ['\n']) = false := by rwa [isEnd_break kind clean]
      rw [cut, pieces_line clean, framesIn_some, if_neg (by simp [inner]), ih h]
      simp [Nat.add_assoc, Nat.add_comm 1]

theorem framesIn_frame {kind : FrameKind} {opening payload closing after : List Char}
    (opens : SentinelLine kind.beginMarker.toList opening)
    (h : Enclosed kind payload closing after) (lineStart : Nat) :
    framesIn kind none lineStart (pieces (opening ++ '\n' :: (payload ++ closing ++ after))) =
      ⟨lineStart, lineStart + opening.length + 1, lineStart + opening.length + 1 + payload.length,
          lineStart + opening.length + 1 + payload.length + closing.length⟩ ::
        framesIn kind none (lineStart + opening.length + 1 + payload.length + closing.length + 1)
          (pieces after.tail) := by
  have clean := opens.unbroken (marker_begin kind)
  have begins : isBegin kind (opening ++ ['\n']) = true := by
    rw [isBegin_break kind clean]
    exact (isSentinel_iff (marker_begin kind) clean).mpr opens
  rw [pieces_line clean, framesIn_none, if_pos begins, framesIn_enclosed h]
  simp [Nat.add_assoc]

/-- Gone through some lines, a frame is open, and the next line is an end sentinel. -/
def ClosesFrom (kind : FrameKind) (openAt : Option Nat) (lineStart : Nat) (cs : List Char)
    (payload : Nat × Nat) : Prop :=
  ∃ done line tail, cs = done ++ (line ++ tail) ∧ WholeLines done ∧ '\n' ∉ line ∧ LineTail tail ∧
    openAfter kind openAt lineStart (pieces done) = some payload.1 ∧
    payload.2 = lineStart + done.length ∧ isEnd kind line = true

section

variable {kind : FrameKind} {openAt : Option Nat} {lineStart : Nat} {body : List Char}
  {payload : Nat × Nat}

theorem closesFrom_last (clean : '\n' ∉ body) :
    ClosesFrom kind openAt lineStart body payload ↔
      payload ∈ closedBy kind openAt lineStart body := by
  rw [mem_closedBy_iff]
  constructor
  · rintro ⟨done, line, tail, rfl, whole, -, ht, opened, stop, ends⟩
    simp only [List.mem_append, not_or] at clean
    obtain rfl := whole.eq_nil clean.1
    have no_tail : tail = [] := by
      cases tail with
      | nil => rfl
      | cons c tail =>
          obtain rfl := ht c rfl
          simp at clean
    rw [no_tail, List.nil_append, List.append_nil]
    exact ⟨opened, stop, ends⟩
  · rintro ⟨opened, stop, ends⟩
    exact ⟨[], body, [], by simp, .nil, clean, .nil, opened, stop, ends⟩

theorem closesFrom_line (clean : '\n' ∉ body) (rest : List Char) :
    ClosesFrom kind openAt lineStart (body ++ '\n' :: rest) payload ↔
      payload ∈ closedBy kind openAt lineStart (body ++ ['\n']) ∨
        ClosesFrom kind (afterLine kind openAt lineStart (body ++ ['\n']))
          (lineStart + (body ++ ['\n']).length) rest payload := by
  rw [mem_closedBy_iff, isEnd_break kind clean]
  constructor
  · rintro ⟨done, line, tail, cut, whole, hl, ht, opened, stop, ends⟩
    by_cases broken : '\n' ∈ done
    · obtain ⟨body', done, rfl, clean'⟩ := List.eq_append_cons_of_mem broken
      rw [List.append_assoc, List.cons_append] at cut
      obtain ⟨rfl, same⟩ := line_tail_unique clean clean' (.break _) (.break _) cut
      obtain ⟨-, rfl⟩ := List.cons_eq_cons.mp same
      rw [pieces_line clean, openAfter_cons] at opened
      refine .inr ⟨done, line, tail, rfl, WholeLines.line_append_iff.mp whole, hl, ht, opened, ?_,
        ends⟩
      simp only [stop, List.length_append, List.length_cons, List.length_nil]
      omega
    · obtain rfl := whole.eq_nil broken
      obtain ⟨rfl, -⟩ := line_tail_unique clean hl (.break _) ht cut
      exact .inl ⟨opened, stop, ends⟩
  · rintro (⟨opened, stop, ends⟩ | ⟨done, line, tail, rfl, whole, hl, ht, opened, stop, ends⟩)
    · exact ⟨[], body, '\n' :: rest, rfl, .nil, clean, .break rest, opened, stop, ends⟩
    · refine ⟨body ++ '\n' :: done, line, tail, by simp, WholeLines.line_append_iff.mpr whole, hl,
        ht, ?_, ?_, ends⟩
      · rwa [pieces_line clean, openAfter_cons]
      · simp only [stop, List.length_append, List.length_cons, List.length_nil]
        omega

theorem mem_closings_iff {cs : List Char} :
    payload ∈ closings kind openAt lineStart (pieces cs) ↔
      ClosesFrom kind openAt lineStart cs payload := by
  induction cs using line_induction generalizing openAt lineStart with
  | last body clean =>
      rw [closesFrom_last clean]
      by_cases ne : body = []
      · rw [mem_closedBy_iff, ne, isEnd_nil]
        simp
      · rw [pieces_last ne clean, closings_cons, closings_nil, List.append_nil, Option.mem_toList,
          Option.mem_def]
  | line body rest clean ih =>
      rw [closesFrom_line clean, pieces_line clean, closings_cons, List.mem_append, ih,
        Option.mem_toList, Option.mem_def]

end

/-- Gone through the lines before `stop`, the scanner has a frame open whose payload begins at
`start`, and the next line is an end sentinel. -/
def Closes (kind : FrameKind) (cs : List Char) (start stop : Nat) : Prop :=
  ∃ done line tail, cs = done ++ (line ++ tail) ∧ WholeLines done ∧ '\n' ∉ line ∧ LineTail tail ∧
    (poll (fun _ => (none : Option Unit)) { kind } done).2.openAt = some start ∧
    stop = done.length ∧ isEnd kind line = true

theorem poll_undecoded_openAt (kind : FrameKind) {done : List Char} (whole : WholeLines done) :
    (poll (fun _ => (none : Option Unit)) { kind } done).2.openAt =
      openAfter kind none 0 (pieces done) := by
  have nothing : (scanLines (fun _ => (none : Option Unit)) done { kind } 0 (pieces done)).1 =
      none := by
    rw [scanLines_fst, List.findSome?_eq_none_iff]
    intro payload _
    rfl
  have state := poll_eq_scanLines (fun _ => (none : Option Unit)) { kind } [] done rfl
  rw [List.nil_append] at state
  rw [state, scanLines_snd _ _ _ _ nothing, whole.completeLines_eq]

theorem closes_iff_mem_scannedFrames {kind : FrameKind} {cs : List Char} {start stop : Nat} :
    Closes kind cs start stop ↔
      ∃ f ∈ scannedFrames kind cs, f.payloadStart = start ∧ f.payloadStop = stop := by
  have places := map_framesIn kind none 0 (pieces cs)
  have mem : (start, stop) ∈ closings kind none 0 (pieces cs) ↔
      ∃ f ∈ scannedFrames kind cs, f.payloadStart = start ∧ f.payloadStop = stop := by
    rw [← Option.map_none, ← places, List.mem_map]
    simp [scannedFrames]
  rw [← mem, mem_closings_iff]
  constructor
  · rintro ⟨done, line, tail, cut, whole, clean, ht, opened, place, ends⟩
    rw [poll_undecoded_openAt kind whole] at opened
    exact ⟨done, line, tail, cut, whole, clean, ht, opened, by simpa using place, ends⟩
  · rintro ⟨done, line, tail, cut, whole, clean, ht, opened, place, ends⟩
    rw [← poll_undecoded_openAt kind whole] at opened
    exact ⟨done, line, tail, cut, whole, clean, ht, opened, by simpa using place, ends⟩

end FrameScanner

namespace Frame

open FrameScanner

/-- The text as characters outside of the frames and frames; a payload has the break of its begin
sentinel line in front. -/
def cutOut (cs : List Char) : (place : Nat) → List FrameSpan → List Segment
  | place, [] => (cs.drop place).map .kept
  | place, f :: rest =>
      (slice cs place f.start).map .kept ++
        .frame (slice cs (f.payloadStart - 1) f.payloadStop) :: cutOut cs f.stop rest

/-- The text without the frames. -/
def leftOver (cs : List Char) : (place : Nat) → List FrameSpan → List Char
  | place, [] => cs.drop place
  | place, f :: rest => slice cs place f.start ++ leftOver cs f.stop rest

theorem slice_middle (before middle after : List Char) :
    slice (before ++ (middle ++ after)) before.length (before.length + middle.length) =
      middle := by
  rw [slice, ← List.append_assoc, ← List.length_append, List.take_left, List.drop_left]

theorem slice_append_slice (cs : List Char) {i j k : Nat} (hij : i ≤ j) (hjk : j ≤ k) :
    slice cs i j ++ slice cs j k = slice cs i k := by
  rw [slice, slice, slice, List.drop_take, List.drop_take, List.drop_take,
    ← List.take_append_drop (j - i) ((cs.drop i).take (k - i)), List.take_take, List.drop_take,
    List.drop_drop, Nat.min_eq_left (by omega)]
  have left : k - i - (j - i) = k - j := by omega
  rw [left, Nat.add_sub_cancel' hij]

theorem slice_append_drop (cs : List Char) {i j : Nat} (hij : i ≤ j) :
    slice cs i j ++ cs.drop j = cs.drop i := by
  have split := List.take_append_drop (j - i) (cs.drop i)
  rwa [List.drop_drop, Nat.add_sub_cancel' hij, ← List.drop_take] at split

/-- What stands before the next frame may be cut out in two parts. -/
theorem cutOut_advance (cs : List Char) {place next : Nat} (h : place ≤ next)
    {frames : List FrameSpan} (later : ∀ f ∈ frames, next ≤ f.start) :
    (slice cs place next).map .kept ++ cutOut cs next frames = cutOut cs place frames := by
  cases frames with
  | nil => rw [cutOut, cutOut, ← List.map_append, slice_append_drop cs h]
  | cons f rest =>
      have before := slice_append_slice cs h (later f (by simp))
      rw [cutOut, cutOut, ← before, List.map_append, List.append_assoc]

theorem segments_frame {kind : FrameKind} {opening payload closing after : List Char}
    (opens : SentinelLine kind.beginMarker.toList opening)
    (h : Enclosed kind payload closing after) (fuel : Nat) :
    segments kind (fuel + 1) true (opening ++ '\n' :: (payload ++ closing ++ after)) =
      .frame ('\n' :: payload) :: segments kind fuel false after := by
  have found := occurrence?_eq_some_iff.mpr ⟨opening, payload, closing, rfl, rfl, opens, h⟩
  rw [segments_start, found]

/-- The first frame is cut out at its places, and what follows is cut from its end on. -/
theorem cutOut_frame {kind : FrameKind} {done opening payload closing after : List Char}
    (opens : SentinelLine kind.beginMarker.toList opening)
    (h : Enclosed kind payload closing after) :
    let front := done ++ (opening ++ '\n' :: (payload ++ closing))
    cutOut (front ++ after) done.length
        (framesIn kind none done.length
          (pieces (opening ++ '\n' :: (payload ++ closing ++ after)))) =
      .frame ('\n' :: payload) :: cutOut (front ++ after) front.length
        (framesIn kind none (front.length + 1) (pieces after.tail)) := by
  intro front
  have stop : done.length + opening.length + 1 + payload.length + closing.length =
      front.length := by
    simp only [front, List.length_append, List.length_cons]
    omega
  have nothing_before : slice (front ++ after) done.length done.length = [] := by simp [slice]
  have same_payload : slice (front ++ after) (done.length + opening.length + 1 - 1)
      (done.length + opening.length + 1 + payload.length) = '\n' :: payload := by
    have cut := slice_middle (done ++ opening) ('\n' :: payload) (closing ++ after)
    simpa [front, Nat.add_assoc, Nat.add_comm 1] using cut
  rw [framesIn_frame opens h, cutOut, stop, nothing_before, same_payload]
  rfl

/-- From a line start on, the pattern cuts out the frames that the scanner closes from there on. -/
theorem segments_eq_cutOut {kind : FrameKind} {done cs : List Char} {fuel : Nat}
    (whole : WholeLines done) (enough : cs.length < fuel) :
    segments kind fuel true cs =
      cutOut (done ++ cs) done.length (framesIn kind none done.length (pieces cs)) := by
  induction cs using frame_induction kind generalizing done fuel with
  | last body clean =>
      have no_frame : framesIn kind none done.length (pieces body) = [] := by
        by_cases ne : body = []
        · simp [ne]
        · simp [pieces_last ne clean, framesIn_none]
      rw [no_frame, cutOut, List.drop_left, segments_last kind clean enough]
  | line body rest clean none_here ih =>
      rw [List.length_append, List.length_cons] at enough
      obtain ⟨left, rfl⟩ : ∃ left, fuel = body.length + (left + 1) :=
        ⟨fuel - body.length - 1, by omega⟩
      have whole' : WholeLines (done ++ (body ++ ['\n'])) := whole.append (.append_break body)
      have shorter : rest.length < left := by omega
      have next := ih whole' shorter
      have grown : done ++ (body ++ ['\n']) ++ rest = done ++ (body ++ '\n' :: rest) := by simp
      rw [List.length_append, grown] at next
      rw [segments_line clean none_here, framesIn_of_no_occurrence clean none_here, next]
      have here := slice_middle done (body ++ ['\n']) rest
      rw [← List.append_assoc, grown] at here
      rw [← cutOut_advance _ (Nat.le_add_right _ (body ++ ['\n']).length)
        (le_start_of_mem_framesIn (by simp) (Nat.le_refl _)), here]
  | frame opening payload closing after opens enclosed ih =>
      obtain ⟨left, rfl⟩ : ∃ left, fuel = left + 1 := ⟨fuel - 1, by omega⟩
      simp only [List.length_append, List.length_cons] at enough
      have text : done ++ (opening ++ '\n' :: (payload ++ closing ++ after)) =
          done ++ (opening ++ '\n' :: (payload ++ closing)) ++ after := by simp
      rw [segments_frame opens enclosed, text, cutOut_frame opens enclosed]
      generalize done ++ (opening ++ '\n' :: (payload ++ closing)) = front
      congr 1
      cases after with
      | nil => simp [segments_nil, cutOut]
      | cons c rest =>
          obtain rfl : c = '\n' := enclosed.tail c rfl
          rw [List.length_cons] at enough
          obtain ⟨left, rfl⟩ : ∃ less, left = less + 1 := ⟨left - 1, by omega⟩
          have shorter : rest.length < left := by omega
          have next := ih (.append_break front) shorter
          have line_break := slice_middle front ['\n'] rest
          simp only [List.tail_cons, List.length_append, List.length_singleton, List.append_assoc,
            List.singleton_append] at next line_break ⊢
          rw [segments_break, next, ← cutOut_advance _ (Nat.le_succ front.length)
            (le_start_of_mem_framesIn (by simp) (Nat.le_refl _)), line_break]
          rfl

theorem framesIn_delimits {kind : FrameKind} {done cs : List Char} (whole : WholeLines done) :
    ∀ f ∈ framesIn kind none done.length (pieces cs), f.Delimits kind (done ++ cs) := by
  induction cs using frame_induction kind generalizing done with
  | last body clean =>
      by_cases ne : body = []
      · simp [ne]
      · simp [pieces_last ne clean, framesIn_none]
  | line body rest clean none_here ih =>
      have next := ih (whole.append (.append_break body))
      rw [framesIn_of_no_occurrence clean none_here, ← List.length_append]
      simpa using next
  | frame opening payload closing after opens enclosed ih =>
      rw [framesIn_frame opens enclosed, List.forall_mem_cons]
      constructor
      · exact ⟨done, opening, payload, closing, after, rfl, whole, opens, enclosed, rfl, rfl, rfl,
          rfl⟩
      · cases after with
        | nil => simp
        | cons c rest =>
            obtain rfl : c = '\n' := enclosed.tail c rfl
            have next := ih (.append_break (done ++ (opening ++ '\n' :: (payload ++ closing))))
            simpa [Nat.add_assoc, Nat.add_comm 1] using next

theorem kept_cutOut (cs : List Char) (place : Nat) (frames : List FrameSpan) :
    ((cutOut cs place frames).filterMap fun
      | .kept c => some c
      | .frame _ => none) = leftOver cs place frames := by
  have all (cs : List Char) : (cs.map Segment.kept).filterMap (fun
      | .kept c => some c
      | .frame _ => none) = cs := by
    simp
  induction frames generalizing place with
  | nil => exact all _
  | cons f rest ih =>
      simp only [cutOut, leftOver, List.filterMap_append, all, List.filterMap_cons, ih]

theorem payloads_cutOut (cs : List Char) (place : Nat) (frames : List FrameSpan) :
    ((cutOut cs place frames).filterMap fun
      | .frame payload => some payload
      | .kept _ => none) =
      frames.map fun f => slice cs (f.payloadStart - 1) f.payloadStop := by
  have none_kept (cs : List Char) : (cs.map Segment.kept).filterMap (fun
      | .frame payload => some payload
      | .kept _ => none) = ([] : List (List Char)) := by
    simp
  induction frames generalizing place with
  | nil => exact none_kept _
  | cons f rest ih => simp [cutOut, none_kept, ih]

/-- What a payload decodes to does not depend on the break in front of it. -/
theorem decodePayload_of_delimits {kind : FrameKind} {cs : List Char} {f : FrameSpan}
    (h : f.Delimits kind cs) {α : Type} (decode : String → Option α) :
    decodePayload decode (slice cs (f.payloadStart - 1) f.payloadStop) =
      decodePayload decode (slice cs f.payloadStart f.payloadStop) := by
  obtain ⟨before, opening, payload, closing, after, rfl, -, -, -, start, first, last, -⟩ := h
  have whole := slice_middle (before ++ opening) ('\n' :: payload) (closing ++ after)
  have inner := slice_middle (before ++ (opening ++ ['\n'])) payload (closing ++ after)
  simp only [List.length_append, List.length_cons, List.length_nil, List.append_assoc,
    List.cons_append, List.nil_append, Nat.zero_add] at whole inner
  have before_payload : f.payloadStart - 1 = before.length + opening.length := by omega
  have payload_start : f.payloadStart = before.length + (opening.length + 1) := by omega
  have payload_stop : f.payloadStop = before.length + (opening.length + 1) + payload.length := by
    omega
  have same_stop : before.length + (opening.length + 1) + payload.length =
      before.length + opening.length + (payload.length + 1) := by omega
  rw [before_payload, payload_start, payload_stop, List.append_assoc, inner, same_stop, whole,
    decodePayload, decodePayload, trim_cons_blank (by decide)]

theorem segmentsOf_eq_cutOut (kind : FrameKind) (cs : List Char) :
    segmentsOf kind cs = cutOut cs 0 (scannedFrames kind cs) :=
  segments_eq_cutOut .nil (Nat.lt_succ_self _)

theorem payloads_eq_map (kind : FrameKind) (cs : List Char) :
    payloads kind cs =
      (scannedFrames kind cs).map fun f => slice cs (f.payloadStart - 1) f.payloadStop := by
  rw [payloads, segmentsOf_eq_cutOut]
  exact payloads_cutOut cs 0 _

theorem scannedFrames_delimits (kind : FrameKind) (cs : List Char) :
    ∀ f ∈ scannedFrames kind cs, f.Delimits kind cs :=
  @framesIn_delimits kind [] cs .nil

theorem extractFrame_eq_findSome?_payloads {α : Type} (decode : String → Option α)
    (kind : FrameKind) (cs : List Char) :
    extractFrame decode kind cs = (payloads kind cs).findSome? (decodePayload decode) := by
  have places := map_framesIn kind none 0 (pieces cs)
  rw [extractFrame_eq_findSome?, payloads_eq_map, ← Option.map_none, ← places,
    List.findSome?_map, List.findSome?_map]
  refine findSome?_congr fun f hf => ?_
  exact (decodePayload_of_delimits (scannedFrames_delimits kind cs f hf) decode).symm

/-- The frames that the pattern takes out of a text are those that the scanner opens and closes
when it goes through the text, and the scanner's answer is the first of them that decodes. -/
theorem strip_eq_leftOver_scannedFrames (kind : FrameKind) (cs : List Char) :
    let frames := scannedFrames kind cs
    segmentsOf kind cs = cutOut cs 0 frames ∧
      strip kind cs = leftOver cs 0 frames ∧
      payloads kind cs = frames.map (fun f => slice cs (f.payloadStart - 1) f.payloadStop) ∧
      (∀ f ∈ frames, f.Delimits kind cs) ∧
      frames.Pairwise (fun f g => f.stop ≤ g.start) ∧
      (∀ start stop, Closes kind cs start stop ↔
        ∃ f ∈ frames, f.payloadStart = start ∧ f.payloadStop = stop) ∧
      ∀ {α : Type} (decode : String → Option α),
        extractFrame decode kind cs = (payloads kind cs).findSome? (decodePayload decode) := by
  refine ⟨segmentsOf_eq_cutOut kind cs, ?_, payloads_eq_map kind cs,
    scannedFrames_delimits kind cs, framesIn_pairwise kind none 0 _,
    fun _ _ => closes_iff_mem_scannedFrames,
    fun decode => extractFrame_eq_findSome?_payloads decode kind cs⟩
  rw [strip, segmentsOf_eq_cutOut]
  exact kept_cutOut cs 0 _

end Frame

end AgentWorkbench
