import AgentWorkbench.Proofs.Frame.Closings
import Mathlib.Data.List.Chain

/-!
Polling a buffer that grows. A scanner that has found nothing has consumed whole lines without a
decodable frame, and remembers of them where an open frame begins; so its next poll answers what a
fresh search of the whole buffer would. Whatever a poll answers, the places that the scanner
remembers are line starts inside the buffer.
-/
namespace AgentWorkbench

open Text AgentWorkbench.Frame

/-- A line starts at this place of the buffer, or the buffer ends there. -/
def LineStart (buffer : List Char) (n : Nat) : Prop :=
  n ≤ buffer.length ∧ WholeLines (buffer.take n)

theorem LineStart.mono {buffer buffer' : List Char} {n : Nat} (h : LineStart buffer n)
    (grown : buffer <+: buffer') : LineStart buffer' n := by
  obtain ⟨more, rfl⟩ := grown
  exact ⟨by simpa using Nat.le_add_right_of_le h.1, by
    simpa [List.take_append_of_le_length h.1] using h.2⟩

theorem lineStart_append {done : List Char} (whole : WholeLines done) (rest : List Char) :
    LineStart (done ++ rest) done.length :=
  ⟨by simp, by simpa using whole⟩

namespace FrameScanner

/-- The places that the scanner remembers are line starts of the buffer, in their order. -/
structure Placed (buffer : List Char) (s : FrameScanner) : Prop where
  scanned : LineStart buffer s.scanned
  openAt : ∀ start ∈ s.openAt, start ≤ s.scanned ∧ LineStart buffer start

theorem Placed.mono {buffer buffer' : List Char} {s : FrameScanner} (h : Placed buffer s)
    (grown : buffer <+: buffer') : Placed buffer' s where
  scanned := h.scanned.mono grown
  openAt start hs := ⟨(h.openAt start hs).1, (h.openAt start hs).2.mono grown⟩

theorem Placed.fresh (buffer : List Char) (kind : FrameKind) : Placed buffer { kind } where
  scanned := ⟨Nat.zero_le _, by simp⟩
  openAt start hs := by contradiction

theorem Placed.pass {buffer : List Char} {s : FrameScanner} (h : Placed buffer s)
    {line : List Char} (next : LineStart buffer (s.scanned + line.length)) :
    Placed buffer (s.pass s.scanned line) where
  scanned := next
  openAt start hs := by
    cases opened : s.openAt with
    | none =>
        simp only [pass_openAt, opened, afterLine, Option.mem_def,
          Option.ite_none_right_eq_some, Option.some.injEq] at hs
        rw [← hs.2]
        exact ⟨Nat.le_refl _, next⟩
    | some first =>
        simp only [pass_openAt, opened, afterLine, Option.mem_def,
          Option.ite_none_left_eq_some, Option.some.injEq] at hs
        have := h.openAt start (hs.2 ▸ opened)
        exact ⟨Nat.le_add_right_of_le this.1, this.2⟩

variable {α : Type} (decode : String → Option α)

theorem Placed.scanLines {s : FrameScanner} {done cs : List Char} (whole : WholeLines done)
    (h : Placed (done ++ cs) s) (consumed : s.scanned = done.length) :
    Placed (done ++ cs) (scanLines decode (done ++ cs) s s.scanned (pieces cs)).2 := by
  induction cs using line_induction generalizing s done with
  | last body clean =>
      by_cases ne : body = []
      · rwa [ne, pieces_nil, FrameScanner.scanLines, ← ne]
      · rwa [pieces_last ne clean,
          scanLines_unfinished decode _ s s.scanned [] (getLast?_ne_of_not_mem clean)]
  | line body rest clean ih =>
      have grown : done ++ (body ++ '\n' :: rest) = (done ++ (body ++ ['\n'])) ++ rest := by simp
      have whole' : WholeLines (done ++ (body ++ ['\n'])) := whole.append (.append_break body)
      have next : LineStart ((done ++ (body ++ ['\n'])) ++ rest)
          (s.scanned + (body ++ ['\n']).length) := by
        rw [consumed, ← List.length_append]
        exact lineStart_append whole' rest
      rw [grown] at h ⊢
      rw [pieces_line clean, scanLines_line decode _ s s.scanned _ (by simp)]
      split
      · exact h.pass next
      · exact ih whole' (h.pass next) (by simp [consumed])

/-- Whatever a poll answers, the scanner remembers line starts of the buffer. -/
theorem Placed.poll {buffer : List Char} {s : FrameScanner} (h : Placed buffer s) :
    Placed buffer (s.poll decode buffer).2 := by
  obtain ⟨le, whole⟩ := h.scanned
  have split := List.take_append_drop s.scanned buffer
  have consumed : s.scanned = (buffer.take s.scanned).length := by simp [le]
  rw [← split] at h
  have placed := h.scanLines decode whole consumed
  rw [split] at placed
  rwa [FrameScanner.poll, if_pos le]

/-- Where a poll of the buffer may cut a payload out of it. -/
def slices (s : FrameScanner) (buffer : List Char) : List (Nat × Nat) :=
  closings s.kind s.openAt s.scanned (pieces (buffer.drop s.scanned))

theorem poll_eq_findSome?_slices {s : FrameScanner} {buffer : List Char}
    (h : s.scanned ≤ buffer.length) :
    (s.poll decode buffer).1 = (s.slices buffer).findSome? (decodeSlice decode buffer) := by
  rw [FrameScanner.poll, if_pos h, scanLines_fst, slices]

theorem Placed.slices {buffer : List Char} {s : FrameScanner} (h : Placed buffer s) :
    ∀ payload ∈ s.slices buffer, payload.1 ≤ payload.2 ∧ payload.2 ≤ buffer.length := by
  intro payload hp
  have ordered := closings_ordered s.kind (fun start hs => (h.openAt start hs).1) _ payload hp
  have bound := closings_le s.kind s.openAt s.scanned _ payload hp
  rw [flatten_pieces, List.length_drop, Nat.add_sub_cancel' h.scanned.1] at bound
  exact ⟨ordered, bound⟩

/-- The scanner has consumed these whole lines, and no frame in them decodes. -/
structure Consumed (decode : String → Option α) (done : List Char) (s : FrameScanner) : Prop where
  whole : WholeLines done
  scanned : s.scanned = done.length
  openAt : s.openAt = openAfter s.kind none 0 (pieces done)
  nothing : extractFrame decode s.kind done = none

theorem Consumed.fresh (kind : FrameKind) : Consumed decode [] { kind } where
  whole := .nil
  scanned := rfl
  openAt := rfl
  nothing := by simp [extractFrame_eq_findSome?]

variable {decode}

theorem Consumed.poll_fst {s : FrameScanner} {done : List Char} (h : Consumed decode done s)
    (rest : List Char) :
    (s.poll decode (done ++ rest)).1 = extractFrame decode s.kind (done ++ rest) := by
  rw [poll_eq_scanLines decode s done rest h.scanned, scanLines_fst,
    extractFrame_append decode s.kind h.whole, h.nothing, Option.none_or, h.openAt, h.scanned]

theorem Consumed.poll_snd {s : FrameScanner} {done rest : List Char} (h : Consumed decode done s)
    (nothing : (s.poll decode (done ++ rest)).1 = none) :
    Consumed decode (done ++ completeLines rest) (s.poll decode (done ++ rest)).2 := by
  have whole : WholeLines (done ++ completeLines rest) :=
    h.whole.append (wholeLines_completeLines rest)
  have state := poll_eq_scanLines decode s done rest h.scanned
  rw [state] at nothing
  rw [state, scanLines_snd decode _ s rest nothing]
  refine ⟨whole, ?_, ?_, ?_⟩
  · simp [h.scanned]
  · rw [pieces_append h.whole, openAfter_append, ← h.openAt, flatten_pieces, Nat.zero_add,
      h.scanned]
  · obtain ⟨part, -, cut⟩ := exists_unfinished rest
    rw [← state, h.poll_fst, cut, ← List.append_assoc, extractFrame_append decode s.kind whole,
      Option.or_eq_none_iff] at nothing
    exact nothing.1

/-- Polls one buffer after the other: what each poll finds, and the scanner after them. -/
def polls (decode : String → Option α) (s : FrameScanner) :
    List (List Char) → List (Option α) × FrameScanner
  | [] => ([], s)
  | buffer :: rest =>
      let (found, s) := s.poll decode buffer
      let (more, s) := polls decode s rest
      (found :: more, s)

@[simp] theorem polls_kind (s : FrameScanner) (buffers : List (List Char)) :
    (s.polls decode buffers).2.kind = s.kind := by
  induction buffers generalizing s with
  | nil => rfl
  | cons buffer rest ih => simp [polls, ih]

theorem Placed.polls (decode : String → Option α) {s : FrameScanner} {seen buffer : List Char}
    {earlier : List (List Char)} (h : Placed seen s)
    (growing : (seen :: (earlier ++ [buffer])).IsChain (· <+: ·)) :
    Placed buffer (s.polls decode earlier).2 := by
  induction earlier generalizing s seen with
  | nil => exact h.mono (by simpa using growing)
  | cons first rest ih =>
      obtain ⟨starts, growing⟩ := List.isChain_cons.mp growing
      exact ih ((h.mono (starts first rfl)).poll decode) growing

/-- Polls that find nothing in growing buffers consume whole lines of all later buffers. -/
theorem Consumed.polls {s : FrameScanner} {done buffer : List Char} {earlier : List (List Char)}
    (h : Consumed decode done s) (growing : (done :: (earlier ++ [buffer])).IsChain (· <+: ·))
    (nothing : ∀ found ∈ (s.polls decode earlier).1, found = none) :
    ∃ done', done' <+: buffer ∧ Consumed decode done' (s.polls decode earlier).2 := by
  induction earlier generalizing s done with
  | nil => exact ⟨done, by simpa using growing, h⟩
  | cons first rest ih =>
      obtain ⟨starts, growing⟩ := List.isChain_cons.mp growing
      obtain ⟨more, rfl⟩ := starts first rfl
      obtain ⟨none_first, none_rest⟩ := List.forall_mem_cons.mp nothing
      apply ih (h.poll_snd none_first) _ none_rest
      obtain ⟨next, growing⟩ := List.isChain_cons.mp growing
      refine List.isChain_cons.mpr ⟨?_, growing⟩
      intro later mem
      obtain ⟨part, -, cut⟩ := exists_unfinished more
      refine List.IsPrefix.trans ⟨part, ?_⟩ (next later mem)
      rw [List.append_assoc, ← cut]

/-- A poll of a growing buffer in which nothing was found so far is a search of the whole buffer.
The scanner then remembers line starts of the buffer only, and cuts no payload that reaches out
of it. -/
theorem poll_growing_eq_extractFrame (decode : String → Option α) (kind : FrameKind)
    (earlier : List (List Char)) (buffer : List Char)
    (growing : (earlier ++ [buffer]).IsChain (· <+: ·))
    (nothing : ∀ found ∈ (polls decode { kind } earlier).1, found = none) :
    let s := (polls decode { kind } earlier).2
    (s.poll decode buffer).1 = extractFrame decode kind buffer ∧
      (s.poll decode buffer).1 = (s.slices buffer).findSome? (decodeSlice decode buffer) ∧
      (∀ payload ∈ s.slices buffer, payload.1 ≤ payload.2 ∧ payload.2 ≤ buffer.length) ∧
      Placed buffer s ∧ Placed buffer (s.poll decode buffer).2 := by
  have start : ([] :: (earlier ++ [buffer])).IsChain (· <+: ·) :=
    List.isChain_cons.mpr ⟨fun _ _ => List.nil_prefix, growing⟩
  have placed := (Placed.fresh [] kind).polls decode start
  refine ⟨?_, poll_eq_findSome?_slices decode placed.scanned.1, placed.slices, placed,
    placed.poll decode⟩
  obtain ⟨done, ⟨rest, rfl⟩, consumed⟩ := (Consumed.fresh decode kind).polls start nothing
  rw [consumed.poll_fst, polls_kind]

/-- A buffer with an undecodable frame whose last line grows, and a frame whose end sentinel
arrives in two parts. -/
theorem poll_growing_split_sentinel :
    let decode : String → Option Nat := fun text => if text = "17" then some 17 else none
    let one := "noise\n---TIMINGS_JSON_BEGIN---\r\n\x7b\n---TIMINGS_JSON_END--- ".toList
    let two := one ++ "\t\n---TIMINGS_JSON_BEGIN---\n17\n---TIMINGS_JSON_E".toList
    let three := two ++ "ND---".toList
    (((polls decode { kind := .timings } [one, two]).2.poll decode three).1 = some 17) ∧
      extractFrame decode .timings three = some 17 := by
  intro decode one two three
  have found := poll_growing_eq_extractFrame decode .timings [one, two] three
    (by decide +kernel) (by decide +kernel)
  have value : extractFrame decode .timings three = some 17 := by decide +kernel
  exact ⟨found.1.trans value, value⟩

end FrameScanner

end AgentWorkbench
