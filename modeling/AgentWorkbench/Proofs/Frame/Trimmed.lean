import AgentWorkbench.Proofs.Frame.Blocks

/-!
Trimming a text may give it a frame that it did not have: the first line that is not blank may be a
begin sentinel but for the blanks in front of it, and the last one an end sentinel but for the
blanks behind it. The frames of a trimmed text are those that the text has up to blanks at its ends.
-/
namespace AgentWorkbench.Frame

open Text

variable {kind : FrameKind}

/-- A begin sentinel and an end sentinel on a later line. Each stands alone on its line, but for
blanks in front of the first if the text has nothing else before it, and behind the last if nothing
else comes after it. -/
def FrameUpToBlanks (kind : FrameKind) (cs : List Char) : Prop :=
  ∃ before opening payload closing after,
    cs = before ++ (opening ++ '\n' :: (payload ++ closing ++ after)) ∧
      SentinelLine kind.beginMarker.toList opening ∧ WholeLines payload ∧
      SentinelLine kind.endMarker.toList closing ∧ (WholeLines before ∨ allBlank before = true) ∧
      (LineTail after ∨ allBlank after = true)

theorem frameUpToBlanks_of_trim {cs : List Char} (framed : payloads kind (trim cs) ≠ []) :
    FrameUpToBlanks kind cs := by
  rw [payloads_eq_map, Ne, List.map_eq_nil_iff] at framed
  obtain ⟨f, mem⟩ := List.exists_mem_of_ne_nil _ framed
  obtain ⟨before, opening, payload, closing, after, cut, whole, opens, enclosed, -⟩ :=
    scannedFrames_delimits kind (trim cs) f mem
  obtain ⟨front, rear, blank_front, blank_rear, text⟩ := exists_trim_append cs
  refine ⟨front ++ before, opening, payload, closing, after ++ rear, ?_, opens, enclosed.whole,
    enclosed.closing, ?_, ?_⟩
  · rw [text, cut]
    simp
  · cases before with
    | nil => exact .inr (by simpa using blank_front)
    | cons c before =>
        refine .inl fun d last => whole d ?_
        rw [List.getLast?_append] at last
        simpa using last
  · cases after with
    | nil => exact .inr blank_rear
    | cons c after => exact .inl fun d first => enclosed.tail d (by simpa using first)

theorem head?_beginMarker (kind : FrameKind) : kind.beginMarker.toList.head? = some '-' := by
  cases kind <;> decide +kernel

theorem getLast?_endMarker (kind : FrameKind) : kind.endMarker.toList.getLast? = some '-' := by
  cases kind <;> decide +kernel

theorem isBlank_of_isTrailingBlank {c : Char} (h : isTrailingBlank c = true) :
    isBlank c = true := by
  simp only [isTrailingBlank, Bool.or_eq_true, decide_eq_true_eq] at h
  obtain rfl | rfl := h <;> decide

/-- Nothing is left of an end sentinel line but its marker when the blanks behind it are dropped. -/
theorem trimEnd_closing {closing : List Char} (h : SentinelLine kind.endMarker.toList closing)
    (front : List Char) : trimEnd (front ++ closing) = front ++ kind.endMarker.toList := by
  obtain ⟨blanks, cr, hblanks, hcr, rfl⟩ := h
  have behind : allBlank (blanks ++ cr) = true := by
    refine allBlank_iff.mpr (List.forall_mem_append.mpr ⟨fun c mem => ?_, ?_⟩)
    · exact isBlank_of_isTrailingBlank (hblanks c mem)
    · obtain rfl | rfl := hcr
      · exact List.forall_mem_nil _
      · exact List.forall_mem_singleton.mpr rfl
  rw [List.append_assoc, ← List.append_assoc front, trimEnd_append_of_blank _ behind]
  apply trimEnd_eq_self
  rw [List.getLast?_append, getLast?_endMarker, Option.some_or]
  rintro c ⟨⟩
  decide

/-- What stands before a begin sentinel is whole lines once blanks in front are dropped. -/
theorem exists_trimStart_opening {before opening : List Char}
    (opens : SentinelLine kind.beginMarker.toList opening)
    (h : WholeLines before ∨ allBlank before = true) (rest : List Char) :
    ∃ before', WholeLines before' ∧
      trimStart (before ++ (opening ++ rest)) = before' ++ (opening ++ rest) := by
  cases blank : allBlank before with
  | true =>
      refine ⟨[], .nil, ?_⟩
      rw [trimStart_append_of_blank blank, List.nil_append]
      apply trimStart_eq_self
      obtain ⟨blanks, cr, -, -, rfl⟩ := opens
      rw [List.append_assoc, List.append_assoc, List.head?_append, head?_beginMarker,
        Option.some_or]
      rintro c ⟨⟩
      decide
  | false =>
      have whole : WholeLines before := h.resolve_right (by simp [blank])
      exact ⟨trimStart before, whole.of_isSuffix (List.dropWhile_suffix _),
        trimStart_append blank _⟩

theorem exists_trimEnd_closing {closing after : List Char}
    (closes : SentinelLine kind.endMarker.toList closing)
    (h : LineTail after ∨ allBlank after = true) (front : List Char) :
    ∃ closing' after', SentinelLine kind.endMarker.toList closing' ∧ LineTail after' ∧
      trimEnd (front ++ closing ++ after) = front ++ closing' ++ after' := by
  cases blank : allBlank after with
  | true =>
      refine ⟨kind.endMarker.toList, [], ⟨[], [], by simp, .inl rfl, by simp⟩, .nil, ?_⟩
      rw [trimEnd_append_of_blank _ blank, trimEnd_closing closes, List.append_nil]
  | false =>
      have tail : LineTail after := h.resolve_right (by simp [blank])
      obtain ⟨dropped, -, cut⟩ := exists_dropEndWhile_append isBlank after
      exact ⟨closing, trimEnd after, closes, tail.of_isPrefix ⟨dropped, cut.symm⟩,
        trimEnd_append _ blank⟩

theorem payloads_ne_nil {before opening payload closing after : List Char}
    (whole : WholeLines before) (opens : SentinelLine kind.beginMarker.toList opening)
    (inner : WholeLines payload) (closes : SentinelLine kind.endMarker.toList closing)
    (ht : LineTail after) :
    payloads kind (before ++ (opening ++ '\n' :: (payload ++ closing ++ after))) ≠ [] := by
  obtain ⟨earlier, cut⟩ := whole.exists_splitOn
  obtain ⟨between, cut'⟩ := inner.exists_splitOn
  rw [Ne, payloads_eq_nil_iff, cut, splitOn_part (opens.unbroken (marker_begin kind)),
    List.append_assoc payload, cut', splitOn_line_tail (closes.unbroken (marker_end kind)) ht]
  intro free
  have later := (List.pairwise_append.mp free).2.1
  exact (List.pairwise_cons.mp later).1 closing (by simp) opens closes

theorem payloads_trim_ne_nil {cs : List Char} (h : FrameUpToBlanks kind cs) :
    payloads kind (trim cs) ≠ [] := by
  obtain ⟨before, opening, payload, closing, after, rfl, opens, inner, closes, hb, ha⟩ := h
  obtain ⟨before', whole, front⟩ := exists_trimStart_opening opens hb
    ('\n' :: (payload ++ closing ++ after))
  have shift (closing after : List Char) :
      before' ++ (opening ++ '\n' :: (payload ++ closing ++ after)) =
        before' ++ (opening ++ '\n' :: payload) ++ closing ++ after := by simp
  obtain ⟨closing', after', closes', tail, rear⟩ := exists_trimEnd_closing closes ha
    (before' ++ (opening ++ '\n' :: payload))
  rw [trim, front, shift, rear, ← shift]
  exact payloads_ne_nil whole opens inner closes' tail

theorem payloads_trim_eq_nil_iff {cs : List Char} :
    payloads kind (trim cs) = [] ↔ ¬ FrameUpToBlanks kind cs :=
  ⟨fun free h => payloads_trim_ne_nil h free,
    fun free => not_not.mp fun framed => free (frameUpToBlanks_of_trim framed)⟩

end AgentWorkbench.Frame
