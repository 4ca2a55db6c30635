import AgentWorkbench.Proofs.Frame.Agreement

/-!
Finding a frame behind other output. Behind whole lines that leave no frame open and hold none
that decodes, a begin sentinel line opens a frame; the first end sentinel line closes it, and its
payload is the answer.
-/
namespace AgentWorkbench.Frame

open Text FrameScanner

/-- After the lines of the text no frame is open: every begin sentinel line has its end. -/
def AllClosed (kind : FrameKind) (cs : List Char) : Prop :=
  openAfter kind none 0 (pieces cs) = none

variable {α : Type} {decode : String → Option α} {kind : FrameKind}

theorem extractFrame_frame {done opening payload closing after : List Char} {a : α}
    (whole : WholeLines done) (nothing : extractFrame decode kind done = none)
    (closed : AllClosed kind done) (opens : SentinelLine kind.beginMarker.toList opening)
    (enclosed : Enclosed kind payload closing after)
    (decoded : decodePayload decode payload = some a) :
    extractFrame decode kind (done ++ (opening ++ '\n' :: (payload ++ closing ++ after))) =
      some a := by
  have places := map_framesIn kind none done.length
    (pieces (opening ++ '\n' :: (payload ++ closing ++ after)))
  rw [framesIn_frame opens enclosed, List.map_cons, Option.map_none] at places
  have inner := slice_middle (done ++ (opening ++ ['\n'])) payload (closing ++ after)
  rw [extractFrame_append decode kind whole, nothing, closed, Option.none_or, ← places,
    List.findSome?_cons, decodeSlice]
  simp only [List.length_append, List.length_cons, List.length_nil, List.append_assoc,
    List.cons_append, List.nil_append, Nat.zero_add, Nat.add_assoc] at inner ⊢
  rw [inner, decoded]

/-- The sentinels of a wrapped payload enclose it if none of its lines is an end sentinel. -/
theorem extractFrame_wrap {done : List Char} {payload : String} {a : α} (whole : WholeLines done)
    (nothing : extractFrame decode kind done = none) (closed : AllClosed kind done)
    (inner : ∀ line ∈ pieces (payload.toList ++ ['\n']), isEnd kind line = false)
    (decoded : decodePayload decode (payload.toList ++ ['\n']) = some a) (later : List Char) :
    extractFrame decode kind (done ++ (kind.wrap payload).toList ++ later) = some a := by
  have text : done ++ (kind.wrap payload).toList ++ later =
      done ++ (kind.beginMarker.toList ++ '\n' ::
        ((payload.toList ++ ['\n']) ++ kind.endMarker.toList ++ '\n' :: later)) := by
    have break_ : "\n".toList = ['\n'] := rfl
    simp [FrameKind.wrap, String.toList_append, break_]
  have opens : SentinelLine kind.beginMarker.toList kind.beginMarker.toList :=
    ⟨[], [], by simp, .inl rfl, by simp⟩
  have closes : SentinelLine kind.endMarker.toList kind.endMarker.toList :=
    ⟨[], [], by simp, .inl rfl, by simp⟩
  have enclosed : Enclosed kind (payload.toList ++ ['\n']) kind.endMarker.toList ('\n' :: later) :=
    ⟨.append_break _, inner, closes, .break later⟩
  rw [text]
  exact extractFrame_frame whole nothing closed opens enclosed decoded

end AgentWorkbench.Frame
