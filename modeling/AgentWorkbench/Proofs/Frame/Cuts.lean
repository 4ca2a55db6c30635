import AgentWorkbench.Proofs.Frame.Agreement

/-!
Searching a text that arrives in chunks, after each of them. A frame that was found in the text so
far is the first frame of the whole text too, unless it was closed early: by a line that was
unfinished and an end sentinel so far, and that went on to be something else.
-/
namespace AgentWorkbench.Frame

open Text FrameScanner

variable {α : Type} (decode : String → Option α) (kind : FrameKind)

/-- What the first frame of the text decodes to that decodes at all. -/
def firstFrame (cs : List Char) : Option α :=
  (payloads kind cs).findSome? (decodePayload decode)

theorem extractFrame_eq_firstFrame (cs : List Char) :
    extractFrame decode kind cs = firstFrame decode kind cs :=
  extractFrame_eq_findSome?_payloads decode kind cs

/-- The frame that gives `a` is the first one of `seen` that decodes, and it is closed by an
unfinished line, which `later` goes on with and makes no end sentinel. -/
def ClosedEarly (seen later : List Char) (a : α) : Prop :=
  ∃ whole part line tail, seen = whole ++ part ∧ later = line ++ tail ∧ WholeLines whole ∧
    '\n' ∉ part ++ line ∧ LineTail tail ∧ isEnd kind part = true ∧
    isEnd kind (part ++ line) = false ∧ firstFrame decode kind whole = none ∧
    firstFrame decode kind seen = some a

variable {decode kind}

/-- A frame that an unfinished line closes began in the lines before. -/
theorem open_of_unfinished {whole part : List Char} {a : α} (lines : WholeLines whole)
    (clean : '\n' ∉ part) (nothing : extractFrame decode kind whole = none)
    (found : extractFrame decode kind (whole ++ part) = some a) :
    ∃ start, openAfter kind none 0 (pieces whole) = some start ∧ isEnd kind part = true ∧
      decodeSlice decode whole (start, whole.length) = some a := by
  rw [extractFrame_append decode kind lines, nothing, Option.none_or] at found
  have ne : part ≠ [] := by
    rintro rfl
    simp at found
  rw [pieces_last ne clean, closings_cons, closings_nil, List.append_nil] at found
  cases opened : openAfter kind none 0 (pieces whole) with
  | none => simp [opened, closedBy] at found
  | some start =>
      by_cases ends : isEnd kind part
      · have value : decodeSlice decode (whole ++ part) (start, whole.length) = some a := by
          simpa [opened, closedBy, ends] using found
        rw [decodeSlice, slice_append (Nat.le_refl _)] at value
        exact ⟨start, rfl, ends, value⟩
      · simp [opened, closedBy, ends] at found

theorem extractFrame_of_closed {whole line tail : List Char} {start : Nat} {a : α}
    (lines : WholeLines whole) (nothing : extractFrame decode kind whole = none)
    (opened : openAfter kind none 0 (pieces whole) = some start) (clean : '\n' ∉ line)
    (ht : LineTail tail) (ends : isEnd kind line = true)
    (value : decodeSlice decode whole (start, whole.length) = some a) :
    extractFrame decode kind (whole ++ (line ++ tail)) = some a := by
  rw [decodeSlice, ← slice_append (Nat.le_refl _) start (line ++ tail)] at value
  have ne : line ≠ [] := by
    rintro rfl
    rw [isEnd_nil] at ends
    contradiction
  rw [extractFrame_append decode kind lines, nothing, Option.none_or, opened]
  cases tail with
  | nil =>
      rw [List.append_nil] at value ⊢
      rw [pieces_last ne clean]
      simp [closedBy, ends, decodeSlice, value]
  | cons c rest =>
      obtain rfl : c = '\n' := ht c rfl
      have ends : isEnd kind (line ++ ['\n']) = true := by rwa [isEnd_break kind clean]
      rw [pieces_line clean]
      simp [closedBy, ends, decodeSlice, value]

/-- What was found stays found, unless the frame was closed early. -/
theorem firstFrame_append {seen : List Char} {a : α}
    (found : firstFrame decode kind seen = some a) (later : List Char) :
    firstFrame decode kind (seen ++ later) = some a ∨ ClosedEarly decode kind seen later a := by
  obtain ⟨part, clean, cut⟩ := exists_unfinished seen
  have lines := wholeLines_completeLines seen
  generalize completeLines seen = whole at cut lines
  subst cut
  rw [← extractFrame_eq_firstFrame] at found ⊢
  cases nothing : extractFrame decode kind whole with
  | some b =>
      rw [extractFrame_append decode kind lines, nothing, Option.some_or] at found
      rw [List.append_assoc, extractFrame_append decode kind lines, nothing, Option.some_or]
      exact .inl found
  | none =>
      obtain ⟨start, opened, part_ends, value⟩ := open_of_unfinished lines clean nothing found
      obtain ⟨line, tail, rfl, clean', ht⟩ := exists_line_tail later
      have clean'' : '\n' ∉ part ++ line := by simp [clean, clean']
      cases ends : isEnd kind (part ++ line) with
      | true =>
          have still := extractFrame_of_closed lines nothing opened clean'' ht ends value
          left
          simpa using still
      | false =>
          right
          rw [extractFrame_eq_firstFrame] at nothing found
          exact ⟨whole, part, line, tail, rfl, rfl, lines, clean'', ht, part_ends, ends, nothing,
            found⟩

variable (decode kind)

/-- What is found first when the text so far is searched after each chunk. -/
def firstRead (seen : List Char) : List (List Char) → Option α
  | [] => none
  | chunk :: rest => (firstFrame decode kind (seen ++ chunk)).or (firstRead (seen ++ chunk) rest)

/-- Reading in chunks finds what the whole text has, or a frame that was closed early. -/
theorem firstRead_eq_or_closedEarly {seen : List Char}
    (nothing : firstFrame decode kind seen = none) (chunks : List (List Char)) :
    firstRead decode kind seen chunks = firstFrame decode kind (seen ++ chunks.flatten) ∨
      ∃ n a, firstRead decode kind seen chunks = some a ∧
        ClosedEarly decode kind (seen ++ (chunks.take n).flatten) (chunks.drop n).flatten a := by
  induction chunks generalizing seen with
  | nil =>
      left
      rw [firstRead, List.flatten_nil, List.append_nil, nothing]
  | cons chunk rest ih =>
      rw [firstRead, List.flatten_cons, ← List.append_assoc]
      cases found : firstFrame decode kind (seen ++ chunk) with
      | some a =>
          rw [Option.some_or]
          obtain same | early := firstFrame_append found rest.flatten
          · exact .inl same.symm
          · exact .inr ⟨1, a, rfl, by simpa using early⟩
      | none =>
          rw [Option.none_or]
          obtain same | ⟨n, a, value, early⟩ := ih found
          · exact .inl same
          · exact .inr ⟨n + 1, a, value, by simpa using early⟩

theorem firstFrame_nil : firstFrame decode kind [] = none := by
  rw [← extractFrame_eq_firstFrame, extractFrame_eq_findSome?]
  rfl

end AgentWorkbench.Frame
