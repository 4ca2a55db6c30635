import AgentWorkbench.Frame.Scanner
import AgentWorkbench.Frame.Strip
import AgentWorkbench.Proofs.Text.Lines
import AgentWorkbench.Proofs.Text.Trim

/-!
Sentinel lines. A line is a sentinel when it is the marker, blanks, and perhaps a carriage return.
The test that looks at a whole line and the pattern that reads on from a line's start both decide
this, so they find the same sentinel lines.
-/
namespace AgentWorkbench.Frame

open Text

/-- The marker, blanks, and perhaps a carriage return. -/
def SentinelLine (marker line : List Char) : Prop :=
  ∃ blanks cr : List Char, (∀ c ∈ blanks, isTrailingBlank c = true) ∧
    (cr = [] ∨ cr = ['\r']) ∧ line = marker ++ blanks ++ cr

/-- A text that stands on one line and whose end no reader of a line drops. -/
structure Marker (marker : List Char) : Prop where
  nonempty : marker ≠ []
  unbroken : '\n' ∉ marker
  solid : ∀ c ∈ marker.getLast?, isTrailingBlank c = false ∧ c ≠ '\r'

theorem marker_begin (kind : FrameKind) : Marker kind.beginMarker.toList where
  nonempty := by cases kind <;> decide +kernel
  unbroken := by cases kind <;> decide +kernel
  solid c hc := by
    have last : kind.beginMarker.toList.getLast? = some '-' := by cases kind <;> decide +kernel
    rw [last] at hc
    cases hc
    decide

theorem marker_end (kind : FrameKind) : Marker kind.endMarker.toList where
  nonempty := by cases kind <;> decide +kernel
  unbroken := by cases kind <;> decide +kernel
  solid c hc := by
    have last : kind.endMarker.toList.getLast? = some '-' := by cases kind <;> decide +kernel
    rw [last] at hc
    cases hc
    decide

theorem blank_ne_return {c : Char} (h : isTrailingBlank c = true) : c ≠ '\r' := by
  rintro rfl
  exact absurd h (by decide)

theorem blank_ne_break {c : Char} (h : isTrailingBlank c = true) : c ≠ '\n' := by
  rintro rfl
  exact absurd h (by decide)

theorem isSentinel_iff {marker line : List Char} (hm : Marker marker) (clean : '\n' ∉ line) :
    isSentinel marker line = true ↔ SentinelLine marker line := by
  have whole : dropLast '\n' line = line := dropLast_of_ne (getLast?_ne_of_not_mem clean)
  simp only [isSentinel, whole, decide_eq_true_eq]
  constructor
  · intro h
    obtain ⟨cr, hcr, hline⟩ := exists_dropLast_append '\r' line
    obtain ⟨blanks, hblanks, hrest⟩ :=
      exists_dropEndWhile_append isTrailingBlank (dropLast '\r' line)
    refine ⟨blanks, cr, hblanks, hcr, ?_⟩
    rw [← h, ← hrest, ← hline]
  · rintro ⟨blanks, cr, hblanks, hcr, rfl⟩
    have rest : dropLast '\r' (marker ++ blanks ++ cr) = marker ++ blanks := by
      obtain rfl | rfl := hcr
      · rw [List.append_nil]
        apply dropLast_of_ne
        rw [List.getLast?_append]
        intro last
        obtain last | ⟨-, last⟩ := Option.or_eq_some_iff.mp last
        · exact blank_ne_return (hblanks _ (List.mem_of_getLast? last)) rfl
        · exact (hm.solid _ last).2 rfl
      · exact dropLast_append_self '\r' _
    rw [rest]
    exact dropEndWhile_append hblanks fun c hc => (hm.solid c hc).1

theorem isSentinel_break (marker : List Char) {line : List Char} (clean : '\n' ∉ line) :
    isSentinel marker (line ++ ['\n']) = isSentinel marker line := by
  rw [isSentinel, isSentinel, dropLast_append_self,
    dropLast_of_ne (getLast?_ne_of_not_mem clean)]

theorem SentinelLine.unbroken {marker line : List Char} (hm : Marker marker)
    (h : SentinelLine marker line) : '\n' ∉ line := by
  obtain ⟨blanks, cr, hblanks, hcr, rfl⟩ := h
  simp only [List.mem_append, not_or]
  refine ⟨⟨hm.unbroken, fun h => blank_ne_break (hblanks _ h) rfl⟩, ?_⟩
  obtain rfl | rfl := hcr <;> decide

theorem afterSentinel?_append {marker line tail : List Char}
    (h : SentinelLine marker line) (ht : LineTail tail) :
    afterSentinel? marker (line ++ tail) = some tail := by
  obtain ⟨blanks, cr, hblanks, hcr, rfl⟩ := h
  have strip : stripStart marker (marker ++ blanks ++ cr ++ tail) = some (blanks ++ (cr ++ tail)) :=
    stripStart_eq_some_iff.mpr (by simp)
  have drop : (blanks ++ (cr ++ tail)).dropWhile isTrailingBlank =
      (cr ++ tail).dropWhile isTrailingBlank :=
    List.dropWhile_append_of_pos hblanks
  simp only [afterSentinel?, strip, Option.bind_eq_bind, Option.bind_some, drop]
  cases tail with
  | nil => obtain rfl | rfl := hcr <;> rfl
  | cons c tail =>
      obtain rfl : c = '\n' := ht c rfl
      obtain rfl | rfl := hcr <;> rfl

theorem sentinelLine_of_afterSentinel? {marker cs tail : List Char}
    (h : afterSentinel? marker cs = some tail) :
    LineTail tail ∧ ∃ line, SentinelLine marker line ∧ cs = line ++ tail := by
  simp only [afterSentinel?, Option.bind_eq_bind, Option.bind_eq_some_iff] at h
  obtain ⟨rest, hrest, h⟩ := h
  obtain rfl := stripStart_eq_some_iff.mp hrest
  have split := (List.takeWhile_append_dropWhile (p := isTrailingBlank) (l := rest)).symm
  have blanks : ∀ c ∈ rest.takeWhile isTrailingBlank, isTrailingBlank c = true :=
    fun c hc => List.mem_takeWhile_imp hc
  generalize rest.takeWhile isTrailingBlank = taken at split blanks
  generalize rest.dropWhile isTrailingBlank = left at split h
  subst split
  have ends : LineTail tail ∧ (left = tail ∨ left = '\r' :: tail) := by
    split at h
    · next nothing =>
        obtain rfl := Option.some.inj h
        refine ⟨.nil, ?_⟩
        split at nothing
        · exact .inr (by rw [nothing])
        · exact .inl nothing
    · next rest more =>
        obtain rfl := Option.some.inj h
        refine ⟨.break rest, ?_⟩
        split at more
        · exact .inr (by rw [more])
        · exact .inl more
    · contradiction
  obtain ⟨ht, rfl | rfl⟩ := ends
  · exact ⟨ht, _, ⟨taken, [], blanks, .inl rfl, rfl⟩, by simp⟩
  · exact ⟨ht, _, ⟨taken, ['\r'], blanks, .inr rfl, rfl⟩, by simp⟩

/-- At the start of a line the pattern finds a sentinel exactly if the line is one, and goes on
right after the line. -/
theorem afterSentinel?_line {marker line tail : List Char} (hm : Marker marker)
    (clean : '\n' ∉ line) (ht : LineTail tail) :
    afterSentinel? marker (line ++ tail) =
      if isSentinel marker line then some tail else none := by
  by_cases h : SentinelLine marker line
  · rw [afterSentinel?_append h ht, if_pos ((isSentinel_iff hm clean).mpr h)]
  · rw [if_neg (mt (isSentinel_iff hm clean).mp h)]
    cases found : afterSentinel? marker (line ++ tail) with
    | none => rfl
    | some tail' =>
        obtain ⟨ht', line', hline', same⟩ := sentinelLine_of_afterSentinel? found
        obtain ⟨rfl, -⟩ := line_tail_unique clean (hline'.unbroken hm) ht ht' same
        exact absurd hline' h

end AgentWorkbench.Frame
