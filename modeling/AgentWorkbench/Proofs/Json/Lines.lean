import AgentWorkbench.Proofs.Frame.Sentinel
import AgentWorkbench.Proofs.Json.Layout

/-!
The lines of a JSON text. A string has no break in it, and a dash outside strings is the sign of a
number, which a digit follows. So no line of a layout begins with two dashes, as every sentinel
does.
-/
namespace AgentWorkbench.Json

open Text JsonReader

/-- No line of the text but perhaps its first begins with two dashes. -/
def CalmTail : List Char → Prop
  | [] => True
  | c :: cs => (c = '\n' → ¬ ['-', '-'] <+: cs) ∧ CalmTail cs

/-- No line of the text begins with two dashes. -/
def Calm (cs : List Char) : Prop :=
  ¬ ['-', '-'] <+: cs ∧ CalmTail cs

theorem calmTail_append {token rest : List Char} (clean : '\n' ∉ token) (h : CalmTail rest) :
    CalmTail (token ++ rest) := by
  induction token with
  | nil => exact h
  | cons c token ih =>
      obtain ⟨hc, clean⟩ := List.ne_and_not_mem_of_not_mem_cons clean
      exact ⟨fun same => absurd same.symm hc, ih clean⟩

theorem calm_cons {c : Char} {cs : List Char} (dash : c ≠ '-') (line : c ≠ '\n')
    (h : CalmTail cs) : Calm (c :: cs) :=
  ⟨fun front => dash (List.cons_prefix_cons.mp front).1.symm, fun same => absurd same line, h⟩

theorem calm_gap {gap cs : List Char} (hgap : Gap gap) (h : Calm cs) : Calm (gap ++ cs) := by
  induction gap with
  | nil => exact h
  | cons c gap ih =>
      obtain ⟨hc, hgap⟩ := List.forall_mem_cons.mp hgap
      have rest := ih hgap
      refine ⟨fun front => ?_, fun _ => rest.1, rest.2⟩
      obtain rfl := (List.cons_prefix_cons.mp front).1
      contradiction

theorem calm_separator {first : Bool} {sep cs : List Char} (hsep : Separator first sep)
    (h : Calm cs) : Calm (sep ++ cs) := by
  cases hsep with
  | first hgap => exact calm_gap hgap h
  | next before after =>
      rw [List.append_assoc, List.cons_append]
      exact calm_gap before (calm_cons (by decide) (by decide) (calm_gap after h).2)

theorem hexDigit_ne_break : ∀ n < 16, hexDigit n ≠ '\n' := by
  decide

theorem escapeChar_unbroken (c : Char) : '\n' ∉ escapeChar c := by
  unfold escapeChar
  split_ifs with _ _ line _ _ _ control
  all_goals try decide
  · have high := hexDigit_ne_break (c.toNat / 16) (by omega)
    have low := hexDigit_ne_break (c.toNat % 16) (by omega)
    simp [high.symm, low.symm]
  · simpa using Ne.symm line

theorem quote_append (s : String) (rest : List Char) :
    ∃ token, quote s ++ rest = '"' :: (token ++ rest) ∧ '\n' ∉ token := by
  refine ⟨s.toList.flatMap escapeChar ++ ['"'], by simp [quote], ?_⟩
  simp [escapeChar_unbroken]

theorem calm_quote (s : String) {rest : List Char} (h : CalmTail rest) :
    Calm (quote s ++ rest) := by
  obtain ⟨token, eq, clean⟩ := quote_append s rest
  rw [eq]
  exact calm_cons (by decide) (by decide) (calmTail_append clean h)

theorem calm_number {n : JsonNumber} (h : n.Rereads) {rest : List Char} (calm : CalmTail rest) :
    Calm (n.toText ++ rest) := by
  obtain ⟨used, eq, clean⟩ := (Bounded.number _ _ _ h).1
  rw [List.append_nil] at eq
  refine ⟨fun front => ?_, calmTail_append (eq ▸ clean) calm⟩
  obtain ⟨sign, digit, tail, eq, rfl | rfl, hd⟩ := exists_digit_of_number h
  · rw [eq] at front
    obtain rfl := (List.cons_prefix_cons.mp front).1
    contradiction
  · rw [eq] at front
    obtain rfl := (List.cons_prefix_cons.mp (List.cons_prefix_cons.mp front).2).1
    contradiction

/-- No line of a layout begins with two dashes, and what follows it does not change that. -/
theorem Layout.calm {part : Part} {cs : List Char} (h : Layout part cs) {rest : List Char}
    (calm : CalmTail rest) : Calm (cs ++ rest) := by
  induction h generalizing rest with
  | null | yes | no =>
      exact calm_cons (by decide) (by decide) (calmTail_append (by decide) calm)
  | num rereads => exact calm_number rereads calm
  | str s => exact calm_quote s calm
  | arr h ih | obj h ih => exact calm_cons (by decide) (by decide) (ih calm).2
  | noItem hgap | noMember hgap =>
      rw [List.append_assoc]
      exact calm_gap hgap (calm_cons (by decide) (by decide) calm)
  | item hsep here more ihHere ihMore =>
      rw [List.append_assoc, List.append_assoc]
      exact calm_separator hsep (ihHere (ihMore calm).2)
  | member key hsep before after here more ihHere ihMore =>
      simp only [List.append_assoc, List.cons_append]
      have value := calm_gap after (ihHere (ihMore calm).2)
      have colon := calm_gap before (calm_cons (by decide : ':' ≠ '-') (by decide) value.2)
      exact calm_separator hsep (calm_quote key colon.2)

theorem Calm.lines {cs : List Char} (h : Calm cs) :
    ∀ line ∈ pieces cs, ¬ ['-', '-'] <+: line := by
  induction cs using line_induction with
  | last body clean =>
      by_cases ne : body = []
      · simp [ne]
      · simpa [pieces_last ne clean] using h.1
  | line body rest clean ih =>
      have after : ∀ front : List Char, CalmTail (front ++ '\n' :: rest) → Calm rest := by
        intro front
        induction front with
        | nil => exact fun h => ⟨h.1 rfl, h.2⟩
        | cons c front ih => exact fun h => ih h.2
      rw [pieces_line clean, List.forall_mem_cons]
      refine ⟨fun front => h.1 (front.trans ?_), ih (after body h.2)⟩
      exact ⟨rest, by simp⟩

theorem dashes_of_isSentinel {marker line : List Char} (dashes : ['-', '-'] <+: marker)
    (h : Frame.isSentinel marker line = true) : ['-', '-'] <+: line := by
  obtain ⟨breaks, -, unbroken⟩ := exists_dropLast_append '\n' line
  obtain ⟨cr, -, uncarried⟩ := exists_dropLast_append '\r' (dropLast '\n' line)
  obtain ⟨blanks, -, bare⟩ := exists_dropEndWhile_append Frame.isTrailingBlank
    (dropLast '\r' (dropLast '\n' line))
  rw [of_decide_eq_true h] at bare
  rw [unbroken, uncarried, bare, List.append_assoc, List.append_assoc]
  exact dashes.trans (List.prefix_append _ _)

theorem Calm.no_end {cs : List Char} (h : Calm cs) (kind : FrameKind) :
    ∀ line ∈ pieces cs, Frame.isEnd kind line = false := by
  intro line hl
  refine eq_false_of_ne_true fun ends => h.lines line hl (dashes_of_isSentinel ?_ ends)
  cases kind <;> decide +kernel

end AgentWorkbench.Json
