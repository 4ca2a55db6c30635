import AgentWorkbench.Proofs.Frame.Sentinel

/-!
What the scanner does with one line, and the frames that it closes in many. A line may open a
frame or close the open one; a closed frame is where its payload begins and ends. The value of a
scan is that of the first closed frame that decodes, and the scanner's state after a scan that
finds nothing is fixed by the complete lines alone.
-/
namespace AgentWorkbench.FrameScanner

open Text AgentWorkbench.Frame

/-- Where the payload of the open frame begins, after a line. -/
def afterLine (kind : FrameKind) (openAt : Option Nat) (lineStart : Nat) (line : List Char) :
    Option Nat :=
  match openAt with
  | none => if isBegin kind line then some (lineStart + line.length) else none
  | some start => if isEnd kind line then none else some start

/-- The payload of the frame that a line closes. -/
def closedBy (kind : FrameKind) (openAt : Option Nat) (lineStart : Nat) (line : List Char) :
    Option (Nat × Nat) :=
  match openAt with
  | none => none
  | some start => if isEnd kind line then some (start, lineStart) else none

/-- The payloads of all frames that are closed in the lines, decodable or not. -/
def closings (kind : FrameKind) :
    (openAt : Option Nat) → (lineStart : Nat) → List (List Char) → List (Nat × Nat)
  | _, _, [] => []
  | openAt, lineStart, line :: rest =>
      (closedBy kind openAt lineStart line).toList ++
        closings kind (afterLine kind openAt lineStart line) (lineStart + line.length) rest

/-- Where the payload begins of the frame that is open after the lines. -/
def openAfter (kind : FrameKind) :
    (openAt : Option Nat) → (lineStart : Nat) → List (List Char) → Option Nat
  | openAt, _, [] => openAt
  | openAt, lineStart, line :: rest =>
      openAfter kind (afterLine kind openAt lineStart line) (lineStart + line.length) rest

@[simp] theorem closings_nil (kind : FrameKind) (openAt : Option Nat) (lineStart : Nat) :
    closings kind openAt lineStart [] = [] := rfl

@[simp] theorem closings_cons (kind : FrameKind) (openAt : Option Nat) (lineStart : Nat)
    (line : List Char) (rest : List (List Char)) :
    closings kind openAt lineStart (line :: rest) =
      (closedBy kind openAt lineStart line).toList ++
        closings kind (afterLine kind openAt lineStart line) (lineStart + line.length) rest := rfl

@[simp] theorem openAfter_nil (kind : FrameKind) (openAt : Option Nat) (lineStart : Nat) :
    openAfter kind openAt lineStart [] = openAt := rfl

@[simp] theorem openAfter_cons (kind : FrameKind) (openAt : Option Nat) (lineStart : Nat)
    (line : List Char) (rest : List (List Char)) :
    openAfter kind openAt lineStart (line :: rest) =
      openAfter kind (afterLine kind openAt lineStart line) (lineStart + line.length) rest := rfl

/-- The scanner after a complete line. -/
def pass (s : FrameScanner) (lineStart : Nat) (line : List Char) : FrameScanner :=
  { s with
    scanned := lineStart + line.length
    openAt := afterLine s.kind s.openAt lineStart line }

@[simp] theorem pass_kind (s : FrameScanner) (lineStart : Nat) (line : List Char) :
    (s.pass lineStart line).kind = s.kind := rfl

@[simp] theorem pass_scanned (s : FrameScanner) (lineStart : Nat) (line : List Char) :
    (s.pass lineStart line).scanned = lineStart + line.length := rfl

@[simp] theorem pass_openAt (s : FrameScanner) (lineStart : Nat) (line : List Char) :
    (s.pass lineStart line).openAt = afterLine s.kind s.openAt lineStart line := rfl

variable {α : Type} (decode : String → Option α) (buffer : List Char)

def decodeSlice (payload : Nat × Nat) : Option α :=
  decodePayload decode (slice buffer payload.1 payload.2)

@[simp] theorem scanLines_nil (s : FrameScanner) (lineStart : Nat) :
    scanLines decode buffer s lineStart [] = (none, s) := rfl

theorem scanLines_line (s : FrameScanner) (lineStart : Nat) {line : List Char}
    (rest : List (List Char)) (complete : line.getLast? = some '\n') :
    scanLines decode buffer s lineStart (line :: rest) =
      match (closedBy s.kind s.openAt lineStart line).bind (decodeSlice decode buffer) with
      | some a => (some a, s.pass lineStart line)
      | none => scanLines decode buffer (s.pass lineStart line) (lineStart + line.length) rest := by
  obtain ⟨kind, scanned, openAt⟩ := s
  rw [scanLines, if_pos complete]
  cases openAt with
  | none =>
      by_cases h : isBegin kind line <;> simp [closedBy, pass, afterLine, h]
  | some start =>
      by_cases h : isEnd kind line
      · cases value : decodePayload decode (slice buffer start lineStart) <;>
          simp [closedBy, pass, afterLine, h, decodeSlice, value]
      · simp [closedBy, pass, afterLine, h]

theorem scanLines_unfinished (s : FrameScanner) (lineStart : Nat) {line : List Char}
    (rest : List (List Char)) (unfinished : line.getLast? ≠ some '\n') :
    scanLines decode buffer s lineStart (line :: rest) =
      ((closedBy s.kind s.openAt lineStart line).bind (decodeSlice decode buffer), s) := by
  obtain ⟨kind, scanned, openAt⟩ := s
  rw [scanLines, if_neg unfinished]
  cases openAt with
  | none => rfl
  | some start => by_cases h : isEnd kind line <;> simp [closedBy, h, decodeSlice]

theorem closings_append (kind : FrameKind) (openAt : Option Nat) (lineStart : Nat)
    (xs ys : List (List Char)) :
    closings kind openAt lineStart (xs ++ ys) =
      closings kind openAt lineStart xs ++
        closings kind (openAfter kind openAt lineStart xs) (lineStart + xs.flatten.length) ys := by
  induction xs generalizing openAt lineStart with
  | nil => simp
  | cons line xs ih => simp [ih, Nat.add_assoc]

theorem openAfter_append (kind : FrameKind) (openAt : Option Nat) (lineStart : Nat)
    (xs ys : List (List Char)) :
    openAfter kind openAt lineStart (xs ++ ys) =
      openAfter kind (openAfter kind openAt lineStart xs) (lineStart + xs.flatten.length) ys := by
  induction xs generalizing openAt lineStart with
  | nil => simp
  | cons line xs ih => simp [ih, Nat.add_assoc]

@[simp] theorem scanLines_kind (s : FrameScanner) (lineStart : Nat) (lines : List (List Char)) :
    (scanLines decode buffer s lineStart lines).2.kind = s.kind := by
  induction lines generalizing s lineStart with
  | nil => rfl
  | cons line rest ih =>
      by_cases complete : line.getLast? = some '\n'
      · rw [scanLines_line decode buffer s lineStart rest complete]
        split
        · rfl
        · rw [ih, pass_kind]
      · rw [scanLines_unfinished decode buffer s lineStart rest complete]

@[simp] theorem poll_kind (s : FrameScanner) : (s.poll decode buffer).2.kind = s.kind := by
  rw [poll]
  split
  · exact scanLines_kind ..
  · rfl

/-- The value of a scan is that of the first closed frame that decodes. -/
theorem scanLines_fst (s : FrameScanner) (lineStart : Nat) (cs : List Char) :
    (scanLines decode buffer s lineStart (pieces cs)).1 =
      (closings s.kind s.openAt lineStart (pieces cs)).findSome? (decodeSlice decode buffer) := by
  induction cs using line_induction generalizing s lineStart with
  | last body clean =>
      by_cases ne : body = []
      · simp [ne]
      · rw [pieces_last ne clean,
          scanLines_unfinished decode buffer s lineStart [] (getLast?_ne_of_not_mem clean)]
        cases h : closedBy s.kind s.openAt lineStart body <;> simp [h]
  | line body rest clean ih =>
      rw [pieces_line clean, scanLines_line decode buffer s lineStart _ (by simp)]
      have next := ih (s.pass lineStart (body ++ ['\n'])) (lineStart + (body ++ ['\n']).length)
      cases h : closedBy s.kind s.openAt lineStart (body ++ ['\n']) with
      | none => simpa [h] using next
      | some payload =>
          cases hp : decodeSlice decode buffer payload with
          | none => simpa [h, hp] using next
          | some a => simp [h, hp]

/-- A scan that finds nothing consumes the complete lines and leaves the unfinished one. -/
theorem scanLines_snd (s : FrameScanner) (cs : List Char)
    (nothing : (scanLines decode buffer s s.scanned (pieces cs)).1 = none) :
    (scanLines decode buffer s s.scanned (pieces cs)).2 =
      { s with
        scanned := s.scanned + (completeLines cs).length
        openAt := openAfter s.kind s.openAt s.scanned (pieces (completeLines cs)) } := by
  induction cs using line_induction generalizing s with
  | last body clean =>
      rw [completeLines_last clean]
      by_cases ne : body = []
      · simp [ne]
      · rw [pieces_last ne clean,
          scanLines_unfinished decode buffer s s.scanned [] (getLast?_ne_of_not_mem clean)]
        simp
  | line body rest clean ih =>
      rw [completeLines_line, pieces_line clean, pieces_line clean]
      rw [pieces_line clean, scanLines_line decode buffer s s.scanned _ (by simp)] at nothing
      rw [scanLines_line decode buffer s s.scanned _ (by simp)]
      split at nothing
      · contradiction
      · next h =>
          have := ih (s.pass s.scanned (body ++ ['\n'])) nothing
          simpa [pass, Nat.add_assoc, Nat.add_comm 1] using this

theorem mem_closedBy_iff {kind : FrameKind} {openAt : Option Nat} {lineStart : Nat}
    {line : List Char} {payload : Nat × Nat} :
    payload ∈ closedBy kind openAt lineStart line ↔
      openAt = some payload.1 ∧ payload.2 = lineStart ∧ isEnd kind line = true := by
  obtain ⟨start, stop⟩ := payload
  cases openAt with
  | none => simp [closedBy]
  | some opened =>
      simp only [closedBy, Option.mem_def, Option.ite_none_right_eq_some, Option.some.injEq,
        Prod.mk.injEq]
      constructor
      · rintro ⟨ends, rfl, rfl⟩
        exact ⟨rfl, rfl, ends⟩
      · rintro ⟨rfl, rfl, ends⟩
        exact ⟨ends, rfl, rfl⟩

theorem afterLine_le {kind : FrameKind} {openAt : Option Nat} {lineStart : Nat}
    (h : ∀ start ∈ openAt, start ≤ lineStart) (line : List Char) :
    ∀ start ∈ afterLine kind openAt lineStart line, start ≤ lineStart + line.length := by
  intro start hs
  cases openAt with
  | none =>
      simp only [afterLine, Option.mem_def, Option.ite_none_right_eq_some,
        Option.some.injEq] at hs
      omega
  | some opened =>
      simp only [afterLine, Option.mem_def, Option.ite_none_left_eq_some,
        Option.some.injEq] at hs
      have := h opened rfl
      omega

theorem closings_le (kind : FrameKind) (openAt : Option Nat) (lineStart : Nat)
    (lines : List (List Char)) :
    ∀ payload ∈ closings kind openAt lineStart lines,
      payload.2 ≤ lineStart + lines.flatten.length := by
  induction lines generalizing openAt lineStart with
  | nil => simp
  | cons line rest ih =>
      intro payload hp
      rw [List.flatten_cons, List.length_append]
      obtain hp | hp := List.mem_append.mp hp
      · rw [(mem_closedBy_iff.mp (Option.mem_toList.mp hp)).2.1]
        exact Nat.le_add_right _ _
      · have := ih _ _ payload hp
        omega

/-- No payload ends before it begins. -/
theorem closings_ordered (kind : FrameKind) {openAt : Option Nat} {lineStart : Nat}
    (h : ∀ start ∈ openAt, start ≤ lineStart) (lines : List (List Char)) :
    ∀ payload ∈ closings kind openAt lineStart lines, payload.1 ≤ payload.2 := by
  induction lines generalizing openAt lineStart with
  | nil => simp
  | cons line rest ih =>
      intro payload hp
      obtain hp | hp := List.mem_append.mp hp
      · obtain ⟨opened, stop, -⟩ := mem_closedBy_iff.mp (Option.mem_toList.mp hp)
        rw [stop]
        exact h payload.1 opened
      · exact ih (afterLine_le h line) payload hp

theorem slice_append {done : List Char} {stop : Nat} (h : stop ≤ done.length)
    (start : Nat) (rest : List Char) :
    slice (done ++ rest) start stop = slice done start stop := by
  rw [slice, slice, List.take_append_of_le_length h]

theorem poll_eq_scanLines (s : FrameScanner) (done rest : List Char)
    (h : s.scanned = done.length) :
    s.poll decode (done ++ rest) =
      scanLines decode (done ++ rest) s s.scanned (pieces rest) := by
  rw [poll, if_pos (by simp [h]), h, List.drop_left]

theorem findSome?_congr {β γ : Type} {f g : β → Option γ} {xs : List β}
    (h : ∀ x ∈ xs, f x = g x) : xs.findSome? f = xs.findSome? g := by
  induction xs with
  | nil => rfl
  | cons x xs ih =>
      rw [List.findSome?_cons, List.findSome?_cons, h x (by simp),
        ih fun y hy => h y (by simp [hy])]

theorem extractFrame_eq_findSome? (kind : FrameKind) (cs : List Char) :
    extractFrame decode kind cs =
      (closings kind none 0 (pieces cs)).findSome? (decodeSlice decode cs) := by
  rw [extractFrame, ← List.nil_append cs, poll_eq_scanLines decode _ [] cs rfl, scanLines_fst]
  rfl

/-- Whole lines are searched first; what follows is searched from the state they leave. -/
theorem extractFrame_append (kind : FrameKind) {done : List Char} (whole : WholeLines done)
    (rest : List Char) :
    extractFrame decode kind (done ++ rest) =
      (extractFrame decode kind done).or
        ((closings kind (openAfter kind none 0 (pieces done)) done.length
          (pieces rest)).findSome? (decodeSlice decode (done ++ rest))) := by
  have inside : ∀ payload ∈ closings kind none 0 (pieces done),
      decodeSlice decode (done ++ rest) payload = decodeSlice decode done payload := by
    intro payload hp
    have bound := closings_le kind none 0 (pieces done) payload hp
    rw [flatten_pieces, Nat.zero_add] at bound
    rw [decodeSlice, decodeSlice, slice_append bound]
  rw [extractFrame_eq_findSome?, extractFrame_eq_findSome?, pieces_append whole,
    closings_append, List.findSome?_append, findSome?_congr inside, flatten_pieces, Nat.zero_add]

end AgentWorkbench.FrameScanner
