import AgentWorkbench.Proofs.Frame.Sentinel

/-!
The pattern read line by line. At the start of a line the search for an end sentinel looks at this
line and goes on to the next; a frame starts at a line only if the line is a begin sentinel and the
search finds an end; a line at which no frame starts is kept as it is.
-/
namespace AgentWorkbench.Frame

open Text

theorem untilEnd?_nil (marker : List Char) : untilEnd? marker false [] = none := rfl

theorem untilEnd?_cons (marker : List Char) (c : Char) (rest : List Char) :
    untilEnd? marker false (c :: rest) =
      (untilEnd? marker (c = '\n') rest).map fun (payload, after) => (c :: payload, after) := rfl

theorem untilEnd?_break (marker rest : List Char) :
    untilEnd? marker false ('\n' :: rest) =
      (untilEnd? marker true rest).map fun (payload, after) => ('\n' :: payload, after) := rfl

theorem untilEnd?_inside (marker : List Char) {body : List Char} (clean : '\n' ∉ body)
    (tail : List Char) :
    untilEnd? marker false (body ++ tail) =
      (untilEnd? marker false tail).map fun (payload, after) => (body ++ payload, after) := by
  induction body with
  | nil => simp
  | cons c body ih =>
      obtain ⟨hc, hb⟩ := List.ne_and_not_mem_of_not_mem_cons clean
      rw [List.cons_append, untilEnd?_cons, decide_eq_false (Ne.symm hc), ih hb, Option.map_map]
      rfl

/-- At the start of a line the search stops if the line is the sentinel. -/
theorem untilEnd?_start (marker cs : List Char) :
    untilEnd? marker true cs = match afterSentinel? marker cs with
      | some after => some ([], after)
      | none => untilEnd? marker false cs := by
  cases cs with
  | nil =>
      change (afterSentinel? marker []).map ([], ·) = _
      cases afterSentinel? marker [] <;> rfl
  | cons c rest => rfl

private theorem untilEnd?_first_line {marker : List Char} (hm : Marker marker)
    {body tail : List Char} (clean : '\n' ∉ body) (ht : LineTail tail) :
    untilEnd? marker true (body ++ tail) =
      if isSentinel marker body then some ([], tail)
      else untilEnd? marker false (body ++ tail) := by
  rw [untilEnd?_start, afterSentinel?_line hm clean ht]
  cases isSentinel marker body <;> rfl

theorem untilEnd?_last {marker : List Char} (hm : Marker marker) {body : List Char}
    (clean : '\n' ∉ body) :
    untilEnd? marker true body = if isSentinel marker body then some ([], []) else none := by
  have first := untilEnd?_first_line hm clean .nil
  rw [untilEnd?_inside marker clean, untilEnd?_nil] at first
  simpa using first

/-- The search looks at a whole line, and goes on to the next if it is no sentinel. -/
theorem untilEnd?_line {marker : List Char} (hm : Marker marker) {body : List Char}
    (clean : '\n' ∉ body) (rest : List Char) :
    untilEnd? marker true (body ++ '\n' :: rest) =
      if isSentinel marker body then some ([], '\n' :: rest)
      else (untilEnd? marker true rest).map fun (payload, after) =>
        (body ++ '\n' :: payload, after) := by
  rw [untilEnd?_first_line hm clean (.break rest), untilEnd?_inside marker clean,
    untilEnd?_break, Option.map_map]
  rfl

/-- A payload of lines none of which is an end sentinel, the end sentinel that closes it, and what
follows in the text. -/
structure Enclosed (kind : FrameKind) (payload closing after : List Char) : Prop where
  whole : WholeLines payload
  inner : ∀ line ∈ pieces payload, isEnd kind line = false
  closing : SentinelLine kind.endMarker.toList closing
  tail : LineTail after

theorem Enclosed.closing_unbroken {kind : FrameKind} {payload closing after : List Char}
    (h : Enclosed kind payload closing after) : '\n' ∉ closing :=
  h.closing.unbroken (marker_end kind)

theorem isEnd_closing {kind : FrameKind} {closing : List Char}
    (h : SentinelLine kind.endMarker.toList closing) : isEnd kind closing = true :=
  (isSentinel_iff (marker_end kind) (h.unbroken (marker_end kind))).mpr h

theorem isEnd_nil (kind : FrameKind) : isEnd kind [] = false := by
  cases kind <;> decide +kernel

theorem isEnd_break (kind : FrameKind) {body : List Char} (clean : '\n' ∉ body) :
    isEnd kind (body ++ ['\n']) = isEnd kind body :=
  isSentinel_break _ clean

theorem isBegin_break (kind : FrameKind) {body : List Char} (clean : '\n' ∉ body) :
    isBegin kind (body ++ ['\n']) = isBegin kind body :=
  isSentinel_break _ clean

theorem Enclosed.cons_line {kind : FrameKind} {body payload closing after : List Char}
    (clean : '\n' ∉ body) :
    Enclosed kind (body ++ '\n' :: payload) closing after ↔
      isEnd kind body = false ∧ Enclosed kind payload closing after := by
  constructor
  · rintro ⟨whole, inner, hclosing, ht⟩
    rw [pieces_line clean, List.forall_mem_cons, isEnd_break kind clean] at inner
    exact ⟨inner.1, WholeLines.line_append_iff.mp whole, inner.2, hclosing, ht⟩
  · rintro ⟨no_end, whole, inner, hclosing, ht⟩
    refine ⟨WholeLines.line_append_iff.mpr whole, ?_, hclosing, ht⟩
    rw [pieces_line clean, List.forall_mem_cons, isEnd_break kind clean]
    exact ⟨no_end, inner⟩

theorem untilEnd?_enclosed {kind : FrameKind} {payload closing after : List Char}
    (h : Enclosed kind payload closing after) :
    untilEnd? kind.endMarker.toList true (payload ++ closing ++ after) = some (payload, after) := by
  induction payload using line_induction with
  | last body clean =>
      obtain rfl := h.whole.eq_nil clean
      have ends : isSentinel kind.endMarker.toList closing = true := isEnd_closing h.closing
      have first := untilEnd?_first_line (marker_end kind) h.closing_unbroken h.tail
      rwa [if_pos ends] at first
  | line body rest clean ih =>
      obtain ⟨no_end, h⟩ := (Enclosed.cons_line clean).mp h
      have next := untilEnd?_line (marker_end kind) clean (rest ++ closing ++ after)
      rw [isEnd] at no_end
      rw [no_end, if_neg Bool.false_ne_true, ih h] at next
      simpa using next

/-- The search for an end finds the shortest payload that a closing line follows. -/
theorem untilEnd?_eq_some_iff {kind : FrameKind} {cs payload after : List Char} :
    untilEnd? kind.endMarker.toList true cs = some (payload, after) ↔
      ∃ closing, cs = payload ++ closing ++ after ∧ Enclosed kind payload closing after := by
  constructor
  · intro found
    induction cs using line_induction generalizing payload with
    | last body clean =>
        rw [untilEnd?_last (marker_end kind) clean] at found
        split at found
        · next h =>
            cases found
            exact ⟨body, by simp, .nil, by simp, (isSentinel_iff (marker_end kind) clean).mp h,
              .nil⟩
        · contradiction
    | line body rest clean ih =>
        rw [untilEnd?_line (marker_end kind) clean] at found
        split at found
        · next h =>
            cases found
            exact ⟨body, by simp, .nil, by simp, (isSentinel_iff (marker_end kind) clean).mp h,
              .break rest⟩
        · next h =>
            obtain ⟨⟨inner, tail⟩, later, same⟩ := Option.map_eq_some_iff.mp found
            cases same
            obtain ⟨closing, rfl, enclosed⟩ := ih later
            refine ⟨closing, by simp, (Enclosed.cons_line clean).mpr ⟨?_, enclosed⟩⟩
            simpa [isEnd] using h
  · rintro ⟨closing, rfl, enclosed⟩
    exact untilEnd?_enclosed enclosed

theorem occurrence?_last (kind : FrameKind) {body : List Char} (clean : '\n' ∉ body) :
    occurrence? kind body = none := by
  have first := afterSentinel?_line (marker_begin kind) clean .nil
  rw [List.append_nil] at first
  rw [occurrence?, first]
  by_cases h : isSentinel kind.beginMarker.toList body <;> simp [h, untilEnd?_nil]

/-- A frame starts at a line if the line is a begin sentinel and an end follows. -/
theorem occurrence?_line (kind : FrameKind) {body : List Char} (clean : '\n' ∉ body)
    (rest : List Char) :
    occurrence? kind (body ++ '\n' :: rest) =
      if isBegin kind body then
        (untilEnd? kind.endMarker.toList true rest).map fun (payload, after) =>
          ('\n' :: payload, after)
      else none := by
  rw [occurrence?, afterSentinel?_line (marker_begin kind) clean (.break rest)]
  by_cases h : isSentinel kind.beginMarker.toList body <;> simp [h, isBegin, untilEnd?_break]

/-- What the pattern matches at the start of a line. -/
theorem occurrence?_eq_some_iff {kind : FrameKind} {cs found after : List Char} :
    occurrence? kind cs = some (found, after) ↔
      ∃ opening payload closing, cs = opening ++ '\n' :: (payload ++ closing ++ after) ∧
        found = '\n' :: payload ∧ SentinelLine kind.beginMarker.toList opening ∧
        Enclosed kind payload closing after := by
  constructor
  · intro h
    by_cases broken : '\n' ∈ cs
    · obtain ⟨body, rest, rfl, clean⟩ := List.eq_append_cons_of_mem broken
      rw [occurrence?_line kind clean] at h
      split at h
      · next opens =>
          obtain ⟨⟨payload, tail⟩, ended, same⟩ := Option.map_eq_some_iff.mp h
          cases same
          obtain ⟨closing, rfl, enclosed⟩ := untilEnd?_eq_some_iff.mp ended
          exact ⟨body, payload, closing, rfl, rfl,
            (isSentinel_iff (marker_begin kind) clean).mp opens, enclosed⟩
      · contradiction
    · rw [occurrence?_last kind broken] at h
      contradiction
  · rintro ⟨opening, payload, closing, rfl, rfl, opens, enclosed⟩
    have clean := opens.unbroken (marker_begin kind)
    have begins : isBegin kind opening = true :=
      (isSentinel_iff (marker_begin kind) clean).mpr opens
    rw [occurrence?_line kind clean, if_pos begins, untilEnd?_enclosed enclosed]
    rfl

/-- A text is a last line, or a line at which no frame starts and a text, or a frame, the rest of
its last line and a text. -/
theorem frame_induction (kind : FrameKind) {P : List Char → Prop}
    (last : ∀ body, '\n' ∉ body → P body)
    (line : ∀ body rest, '\n' ∉ body → occurrence? kind (body ++ '\n' :: rest) = none →
      P rest → P (body ++ '\n' :: rest))
    (frame : ∀ opening payload closing after, SentinelLine kind.beginMarker.toList opening →
      Enclosed kind payload closing after → P after.tail →
      P (opening ++ '\n' :: (payload ++ closing ++ after)))
    (cs : List Char) : P cs := by
  induction h : cs.length using Nat.strong_induction_on generalizing cs with
  | _ n ih =>
      subst h
      by_cases broken : '\n' ∈ cs
      · obtain ⟨body, rest, rfl, clean⟩ := List.eq_append_cons_of_mem broken
        cases found : occurrence? kind (body ++ '\n' :: rest) with
        | none => exact line body rest clean found (ih _ (by simp; omega) rest rfl)
        | some matched =>
            obtain ⟨_, after⟩ := matched
            obtain ⟨opening, payload, closing, cut, -, opens, enclosed⟩ :=
              occurrence?_eq_some_iff.mp found
            rw [cut] at ih ⊢
            exact frame opening payload closing after opens enclosed
              (ih _ (by simp; omega) after.tail rfl)
      · exact last cs broken

theorem segments_nil (kind : FrameKind) (fuel : Nat) : segments kind fuel false [] = [] := by
  cases fuel <;> rfl

theorem segments_cons (kind : FrameKind) (fuel : Nat) (c : Char) (rest : List Char) :
    segments kind (fuel + 1) false (c :: rest) = .kept c :: segments kind fuel (c = '\n') rest := rfl

theorem segments_break (kind : FrameKind) (rest : List Char) (fuel : Nat) :
    segments kind (fuel + 1) false ('\n' :: rest) = .kept '\n' :: segments kind fuel true rest := rfl

/-- At the start of a line a frame is cut out if one starts there. -/
theorem segments_start (kind : FrameKind) (fuel : Nat) (cs : List Char) :
    segments kind (fuel + 1) true cs = match occurrence? kind cs with
      | some (payload, rest) => .frame payload :: segments kind fuel false rest
      | none => segments kind (fuel + 1) false cs := by
  cases cs <;> rfl

theorem segments_of_no_occurrence {kind : FrameKind} {cs : List Char}
    (none_here : occurrence? kind cs = none) (fuel : Nat) :
    segments kind fuel true cs = segments kind fuel false cs := by
  cases fuel with
  | zero => rfl
  | succ fuel => rw [segments_start, none_here]

theorem segments_inside (kind : FrameKind) {body : List Char} (clean : '\n' ∉ body)
    (tail : List Char) (fuel : Nat) :
    segments kind (body.length + fuel) false (body ++ tail) =
      body.map .kept ++ segments kind fuel false tail := by
  induction body with
  | nil => simp
  | cons c body ih =>
      obtain ⟨hc, hb⟩ := List.ne_and_not_mem_of_not_mem_cons clean
      rw [List.length_cons, Nat.add_right_comm, List.cons_append, segments_cons,
        decide_eq_false (Ne.symm hc), ih hb]
      rfl

theorem segments_last (kind : FrameKind) {body : List Char} (clean : '\n' ∉ body) {fuel : Nat}
    (enough : body.length < fuel) : segments kind fuel true body = body.map .kept := by
  obtain ⟨left, rfl⟩ := Nat.exists_eq_add_of_lt enough
  have inside := segments_inside kind clean [] (left + 1)
  rw [segments_of_no_occurrence (occurrence?_last kind clean), Nat.add_assoc]
  simpa [segments_nil] using inside

/-- A line at which no frame starts is kept. -/
theorem segments_line {kind : FrameKind} {body rest : List Char} (clean : '\n' ∉ body)
    (none_here : occurrence? kind (body ++ '\n' :: rest) = none) (fuel : Nat) :
    segments kind (body.length + (fuel + 1)) true (body ++ '\n' :: rest) =
      (body ++ ['\n']).map .kept ++ segments kind fuel true rest := by
  rw [segments_of_no_occurrence none_here, segments_inside kind clean, segments_break]
  simp

end AgentWorkbench.Frame
