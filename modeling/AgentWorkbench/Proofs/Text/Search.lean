import AgentWorkbench.Text.Search
import AgentWorkbench.Proofs.Text.Lines
import Mathlib.Data.List.Infix

/-!
What a search finds. A text holds a pattern if the pattern is an infix of it. A pattern without a
line break lies inside one line, so it is on one side of any place at which a line starts or ends.
-/
namespace AgentWorkbench.Text

theorem isSuffix_of_stripStart {pat cs rest : List Char} (h : stripStart pat cs = some rest) :
    rest <:+ cs :=
  ⟨pat, (stripStart_eq_some_iff.mp h).symm⟩

theorem cutAt_eq_some_iff {c : Char} {cs before rest : List Char} :
    cutAt [c] cs = some (before, rest) ↔ cs = before ++ c :: rest ∧ c ∉ before := by
  induction cs generalizing before with
  | nil => simp [cutAt]
  | cons d cs ih =>
      by_cases here : c = d
      · subst here
        cases before with
        | nil => simp [cutAt, stripStart, eq_comm]
        | cons e before => simp [cutAt, stripStart]; grind
      · cases before with
        | nil => simp [cutAt, stripStart, here, Ne.symm here]
        | cons e before => simp [cutAt, stripStart, here, ih]; grind

theorem startsWith_iff_isPrefix {pat cs : List Char} : startsWith pat cs = true ↔ pat <+: cs := by
  rw [startsWith, Option.isSome_iff_exists]
  constructor
  · rintro ⟨rest, h⟩
    exact ⟨rest, (stripStart_eq_some_iff.mp h).symm⟩
  · rintro ⟨rest, h⟩
    exact ⟨rest, stripStart_eq_some_iff.mpr h.symm⟩

theorem contains_iff_isInfix {pat cs : List Char} : contains pat cs = true ↔ pat <:+: cs := by
  induction cs with
  | nil => simp [contains]
  | cons c cs ih => rw [contains, Bool.or_eq_true, startsWith_iff_isPrefix, ih, List.infix_cons_iff]

/-- A place at which a line starts or ends: what is before it ends in a break or is empty, or what
is after it starts with a break or is empty. -/
def LineBoundary (before after : List Char) : Prop :=
  WholeLines before ∨ LineTail after

/-- No pattern without a break lies across a line boundary. -/
theorem LineBoundary.isInfix_append_iff {pat before after : List Char}
    (h : LineBoundary before after) (unbroken : '\n' ∉ pat) :
    pat <:+: before ++ after ↔ pat <:+: before ∨ pat <:+: after := by
  constructor
  · rintro ⟨front, back, cut⟩
    rw [List.append_assoc] at cut
    obtain ⟨more, rfl, inner⟩ | ⟨more, rfl, rfl⟩ := List.append_eq_append_iff.mp cut
    · obtain ⟨rest, rfl, -⟩ | ⟨rest, rfl, rfl⟩ := List.append_eq_append_iff.mp inner
      · exact .inl ⟨front, rest, by simp⟩
      · -- `more` ends the text before the place and `rest` starts the one after it
        rw [List.mem_append, not_or] at unbroken
        obtain whole | tail := h
        · have empty : more = [] := by
            refine WholeLines.eq_nil (fun c hc => whole c ?_) unbroken.1
            rw [List.getLast?_append, hc, Option.some_or, Option.mem_some]
          subst empty
          exact .inr ⟨[], back, by simp⟩
        · cases rest with
          | nil => exact .inl ⟨front, [], by simp⟩
          | cons c rest =>
              have broken : c = '\n' := tail c rfl
              exact absurd (broken ▸ List.mem_cons_self) unbroken.2
    · exact .inr ⟨more, back, by simp⟩
  · rintro (inside | inside)
    · exact inside.trans (List.infix_append' [] before after)
    · exact inside.trans (List.suffix_append before after).isInfix

/-- Cutting a text between two of its pieces is cutting it at a line boundary. -/
theorem lineBoundary_pieces (cs : List Char) (n : Nat) :
    LineBoundary ((pieces cs).take n).flatten ((pieces cs).drop n).flatten := by
  induction cs using line_induction generalizing n with
  | last body clean =>
      cases n with
      | zero => exact .inl (by simp)
      | succ n =>
          refine .inr ?_
          by_cases empty : body = []
          · simp [empty]
          · simp [pieces_last empty clean]
  | line body rest clean ih =>
      cases n with
      | zero => exact .inl (by simp)
      | succ n =>
          rw [pieces_line clean, List.take_succ_cons, List.drop_succ_cons, List.flatten_cons]
          exact (ih n).imp (WholeLines.append (.append_break body)) id

end AgentWorkbench.Text
